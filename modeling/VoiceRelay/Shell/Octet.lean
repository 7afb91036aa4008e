import VoiceRelay.Text.Utf8

/-!
# Octets as characters

Programs and scripts work on octets, most of which are letters and marks. Here an octet is the
character with its number, so a script is a list of characters below 256.

**Results.**

- `toOctets_ofText`: the octets of a text are those that write it.
-/

namespace VoiceRelay
namespace Shell

/-- A text, octet by octet. -/
abbrev Octets := List Char

section Defs

/-- The octets of a text. -/
def ofText (text : String) : Octets :=
  (Utf8.encode text.toList).map fun b => Char.ofNat b.toNat

/-- The octets themselves. -/
def toOctets (cs : Octets) : List UInt8 := cs.map fun c => UInt8.ofNat c.toNat

end Defs

section Laws

theorem ofNat_toNat (b : UInt8) : UInt8.ofNat (Char.ofNat b.toNat).toNat = b := by
  have h : b.toNat < 256 := b.toNat_lt
  have hv : b.toNat.isValidChar := Or.inl (by omega)
  have hc : (Char.ofNat b.toNat).toNat = b.toNat := by
    rw [Char.ofNat, dif_pos hv]
    rfl
  rw [hc]
  exact UInt8.ofNat_toNat

/-- The octets of a text are those that write it. -/
theorem toOctets_ofText (text : String) : toOctets (ofText text) = Utf8.encode text.toList := by
  have h : ((fun c : Char => UInt8.ofNat c.toNat) ∘ fun b : UInt8 => Char.ofNat b.toNat) = id :=
    funext ofNat_toNat
  rw [toOctets, ofText, List.map_map, h, List.map_id]

end Laws

end Shell
end VoiceRelay
