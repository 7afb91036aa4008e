import VoiceRelay.Text.Utf8

/-!
# Text and its octets

The encoding of a text is read back as this text, whatever octets follow it. An octet below 80₁₆ in the
encoding is a character of its own, so an encoded text holds a line feed only where the text does. The same
is true of octets that are no encoding of a text: an octet below 80₁₆ is read as itself, whatever stands
before and behind it.

**Design.** The octets of a character take the reader from its state between characters through the
states that the first octet announces and back. `lead_two`, `lead_three` and `lead_four` say what the first octet
announces, by the number of octets; `step_more` and `step_last` read the others. `Partial.Long` is what is
true of every sequence that was begun and not finished, whether it will be well-formed or not.

**Results.**

- `decodeFrom_utf8EncodeChar`: the octets of one character.
- `decode_encode_append`: an encoded text in front of other octets.
- `mem_encode`: where a small octet comes from.
- `decode_append_ascii`, `mem_decode`: where a small octet goes to, in any octets.
-/

namespace VoiceRelay
namespace Utf8

section Steps

variable {b : UInt8} {v : Nat}

theorem toNat_ofNat {n : Nat} (h : n < 0x100) : (UInt8.ofNat n).toNat = n :=
  UInt8.toNat_ofNat_of_lt' h

/-- The first of two octets. -/
theorem lead_two (hlow : 0x80 ≤ v) (hhigh : v ≤ 0x7FF) (hb : b.toNat = v / 64 + 0xC0) :
    lead b = (some ⟨0, 0x80, 0xBF, v / 64⟩, []) := by
  have hsub : b.toNat - 0xC0 = v / 64 := by omega
  unfold lead
  rw [if_neg (by omega), if_neg (by omega), if_pos (by omega), hsub]

/-- The first of three octets; the next one lies in the range that is announced, since the character
needs three octets and is no surrogate. -/
theorem lead_three (hlow : 0x800 ≤ v) (hhigh : v ≤ 0xFFFF) (hscalar : v < 0xD800 ∨ 0xDFFF < v)
    (hb : b.toNat = v / 4096 + 0xE0) :
    ∃ low high, lead b = (some ⟨1, low, high, v / 4096⟩, []) ∧
      low ≤ v / 64 % 64 + 0x80 ∧ v / 64 % 64 + 0x80 ≤ high := by
  unfold lead
  rw [if_neg (by omega), if_neg (by omega), if_neg (by omega)]
  by_cases hfirst : b.toNat = 0xE0
  · have hvalue : v / 4096 = 0 := by omega
    exact ⟨0xA0, 0xBF, by rw [if_pos hfirst, hvalue], by omega, by omega⟩
  · rw [if_neg hfirst]
    by_cases hlast : b.toNat = 0xED
    · have hvalue : v / 4096 = 0xD := by omega
      exact ⟨0x80, 0x9F, by rw [if_pos hlast, hvalue], by omega, by omega⟩
    · have hsub : b.toNat - 0xE0 = v / 4096 := by omega
      exact ⟨0x80, 0xBF, by rw [if_neg hlast, if_pos (by omega), hsub], by omega, by omega⟩

/-- The first of four octets; the next one lies in the range that is announced, since the character
needs four octets and there is none above 10FFFF₁₆. -/
theorem lead_four (hlow : 0x10000 ≤ v) (hhigh : v < 0x110000) (hb : b.toNat = v / 262144 + 0xF0) :
    ∃ low high, lead b = (some ⟨2, low, high, v / 262144⟩, []) ∧
      low ≤ v / 4096 % 64 + 0x80 ∧ v / 4096 % 64 + 0x80 ≤ high := by
  unfold lead
  rw [if_neg (by omega), if_neg (by omega), if_neg (by omega), if_neg (by omega), if_neg (by omega),
    if_neg (by omega)]
  by_cases hfirst : b.toNat = 0xF0
  · have hvalue : v / 262144 = 0 := by omega
    exact ⟨0x90, 0xBF, by rw [if_pos hfirst, hvalue], by omega, by omega⟩
  · rw [if_neg hfirst]
    by_cases hlast : b.toNat = 0xF4
    · have hvalue : v / 262144 = 4 := by omega
      exact ⟨0x80, 0x8F, by rw [if_neg (by omega), if_pos hlast, hvalue], by omega, by omega⟩
    · have hsub : b.toNat - 0xF0 = v / 262144 := by omega
      exact ⟨0x80, 0xBF, by rw [if_pos (by omega), hsub], by omega, by omega⟩

/-- A later octet of a character, made of six bits, in the range that the ones before announced. -/
theorem step_more {low high : Nat} (missing value v : Nat) (hlow : low ≤ v % 64 + 0x80)
    (hhigh : v % 64 + 0x80 ≤ high) :
    step (some ⟨missing + 1, low, high, value⟩) (UInt8.ofNat (v % 64 + 128)) =
      (some ⟨missing, 0x80, 0xBF, value * 64 + v % 64⟩, []) := by
  have hb : (UInt8.ofNat (v % 64 + 128)).toNat = v % 64 + 0x80 := toNat_ofNat (by omega)
  simp only [step, hb, hlow, hhigh, and_self, if_true, Nat.add_sub_cancel]

/-- The last octet of a character, in the range that the ones before announced. -/
theorem step_last {low high : Nat} {c : Char} (value v : Nat) (hlow : low ≤ v % 64 + 0x80)
    (hhigh : v % 64 + 0x80 ≤ high) (hvalue : Char.ofNat (value * 64 + v % 64) = c) :
    step (some ⟨0, low, high, value⟩) (UInt8.ofNat (v % 64 + 128)) = (none, [c]) := by
  have hb : (UInt8.ofNat (v % 64 + 128)).toNat = v % 64 + 0x80 := toNat_ofNat (by omega)
  simp only [step, hb, hlow, hhigh, and_self, if_true, Nat.add_sub_cancel, hvalue]

theorem decodeFrom_cons {s s' : Option Partial} {out : List Char} (h : step s b = (s', out))
    (done : List Char) (rest : List UInt8) :
    decodeFrom s done (b :: rest) = decodeFrom s' (out.reverse ++ done) rest := by
  simp only [decodeFrom, h]

end Steps

section Reading

/-- **The octets of a character are read back as this character.** -/
theorem decodeFrom_utf8EncodeChar (c : Char) (done : List Char) (rest : List UInt8) :
    decodeFrom none done (String.utf8EncodeChar c ++ rest) = decodeFrom none (c :: done) rest := by
  have hback : Char.ofNat c.val.toNat = c := Char.ofNat_toNat c
  have hvalid : c.val.toNat < 0xD800 ∨ 0xDFFF < c.val.toNat ∧ c.val.toNat < 0x110000 := c.valid
  unfold String.utf8EncodeChar
  generalize c.val.toNat = v at *
  simp only
  -- One case for each number of octets.
  split
  · next hone =>
    have hb : (UInt8.ofNat v).toNat = v := toNat_ofNat (by omega)
    have hstep : step none (UInt8.ofNat v) = (none, [c]) := by
      rw [step, lead, hb, if_pos (by omega), hback]
    exact decodeFrom_cons hstep done rest
  split
  · next hone htwo =>
    have hb : (UInt8.ofNat (v / 64 % 32 + 192)).toNat = v / 64 + 0xC0 := by
      rw [toNat_ofNat (by omega)]
      omega
    have hfirst : step none _ = _ := lead_two (by omega) htwo hb
    have hvalue : v / 64 * 64 + v % 64 = v := by omega
    refine (decodeFrom_cons hfirst done _).trans ?_
    exact decodeFrom_cons (step_last (v / 64) v (by omega) (by omega) (by rw [hvalue, hback])) done rest
  split
  · next hone htwo hthree =>
    have hb : (UInt8.ofNat (v / 4096 % 16 + 224)).toNat = v / 4096 + 0xE0 := by
      rw [toNat_ofNat (by omega)]
      omega
    obtain ⟨low, high, hlead, hlow, hhigh⟩ := lead_three (by omega) hthree (by omega) hb
    have hfirst : step none _ = _ := hlead
    have hvalue : (v / 4096 * 64 + v / 64 % 64) * 64 + v % 64 = v := by omega
    refine (decodeFrom_cons hfirst done _).trans ?_
    refine (decodeFrom_cons (step_more 0 (v / 4096) (v / 64) hlow hhigh) done _).trans ?_
    exact decodeFrom_cons (step_last _ v (by omega) (by omega) (by rw [hvalue, hback])) done rest
  · next hone htwo hthree =>
    have hb : (UInt8.ofNat (v / 262144 % 8 + 240)).toNat = v / 262144 + 0xF0 := by
      rw [toNat_ofNat (by omega)]
      omega
    obtain ⟨low, high, hlead, hlow, hhigh⟩ := lead_four (by omega) (by omega) hb
    have hfirst : step none _ = _ := hlead
    have hvalue : ((v / 262144 * 64 + v / 4096 % 64) * 64 + v / 64 % 64) * 64 + v % 64 = v := by omega
    refine (decodeFrom_cons hfirst done _).trans ?_
    refine (decodeFrom_cons (step_more 1 (v / 262144) (v / 4096) hlow hhigh) done _).trans ?_
    refine (decodeFrom_cons (step_more 0 _ (v / 64) (by omega) (by omega)) done _).trans ?_
    exact decodeFrom_cons (step_last _ v (by omega) (by omega) (by rw [hvalue, hback])) done rest

/-- **An encoded text is read back**, whatever octets follow it. -/
theorem decode_encode_append (cs : List Char) (rest : List UInt8) :
    decode (encode cs ++ rest) = cs ++ decode rest := by
  have hfrom : ∀ done, decodeFrom none done (encode cs ++ rest) =
      decodeFrom none (cs.reverse ++ done) rest := by
    induction cs with
    | nil => exact fun _ => rfl
    | cons c cs ih =>
      intro done
      have hcons : encode (c :: cs) = String.utf8EncodeChar c ++ encode cs := List.flatMap_cons
      rw [hcons, List.append_assoc, decodeFrom_utf8EncodeChar]
      rw [ih (c :: done), List.reverse_cons, List.append_assoc, List.singleton_append]
  rw [decode, hfrom, decodeFrom_done]
  simp [decode]

@[simp] theorem decode_encode (cs : List Char) : decode (encode cs) = cs := by
  simpa [decode, decodeFrom, flush] using decode_encode_append cs []

end Reading

section Octets

/-- An octet of a longer character is not below 80₁₆. -/
theorem mem_utf8EncodeChar {c : Char} {b : UInt8} (h : b ∈ String.utf8EncodeChar c)
    (hb : b.toNat < 0x80) : c = Char.ofNat b.toNat := by
  have hback : Char.ofNat c.val.toNat = c := Char.ofNat_toNat c
  have hvalid : c.val.toNat < 0xD800 ∨ 0xDFFF < c.val.toNat ∧ c.val.toNat < 0x110000 := c.valid
  unfold String.utf8EncodeChar at h
  generalize c.val.toNat = v at *
  simp only at h
  have hsmall : ∀ n, n < 0x100 → 0x80 ≤ n → b ≠ UInt8.ofNat n := by
    rintro n hn hlow rfl
    rw [toNat_ofNat hn] at hb
    omega
  split at h
  · next hone =>
    obtain rfl := List.mem_singleton.1 h
    rw [toNat_ofNat (by omega), hback]
  split at h
  · simp only [List.mem_cons, List.not_mem_nil, or_false] at h
    rcases h with h | h
    all_goals exact absurd h (hsmall _ (by omega) (by omega))
  split at h
  · simp only [List.mem_cons, List.not_mem_nil, or_false] at h
    rcases h with h | h | h
    all_goals exact absurd h (hsmall _ (by omega) (by omega))
  · simp only [List.mem_cons, List.not_mem_nil, or_false] at h
    rcases h with h | h | h | h
    all_goals exact absurd h (hsmall _ (by omega) (by omega))

/-- **An octet below 80₁₆ in an encoded text is a character of this text.** -/
theorem mem_encode {cs : List Char} {b : UInt8} (h : b ∈ encode cs) (hb : b.toNat < 0x80) :
    Char.ofNat b.toNat ∈ cs := by
  obtain ⟨c, hc, hmem⟩ := List.mem_flatMap.1 h
  rwa [← mem_utf8EncodeChar hmem hb]

end Octets

section Boundaries

variable {s : Option Partial} {b : UInt8} {c : Char}

/-- An unfinished sequence that no octet below 80₁₆ goes on with, and that becomes no character below
80₁₆. -/
def Partial.Long (p : Partial) : Prop :=
  0x80 ≤ p.low ∧ (2 ≤ p.value ∨ 0 < p.missing ∧ (0 < p.value ∨ 0x82 ≤ p.low))

/-- A first octet is a character, or nothing well-formed begins with it, or it begins a long sequence. -/
theorem lead_cases (b : UInt8) :
    (b.toNat < 0x80 ∧ lead b = (none, [Char.ofNat b.toNat])) ∨ lead b = (none, [replacement]) ∨
      ∃ p : Partial, p.Long ∧ lead b = (some p, []) := by
  simp only [lead]
  split
  · next hsmall => exact Or.inl ⟨hsmall, rfl⟩
  refine Or.inr ?_
  -- The other rows of the table of first octets.
  split
  · exact Or.inl rfl
  split
  · exact Or.inr ⟨_, ⟨Nat.le_refl _, Or.inl (by simp only; omega)⟩, rfl⟩
  split
  · exact Or.inr ⟨_, ⟨by decide, Or.inr ⟨by decide, Or.inr (by decide)⟩⟩, rfl⟩
  split
  · exact Or.inr ⟨_, ⟨by decide, Or.inl (by decide)⟩, rfl⟩
  split
  · exact Or.inr ⟨_, ⟨Nat.le_refl _, Or.inr ⟨Nat.succ_pos _, Or.inl (by simp only; omega)⟩⟩, rfl⟩
  split
  · exact Or.inr ⟨_, ⟨by decide, Or.inr ⟨by decide, Or.inr (by decide)⟩⟩, rfl⟩
  split
  · exact Or.inr ⟨_, ⟨Nat.le_refl _, Or.inr ⟨Nat.succ_pos _, Or.inl (by simp only; omega)⟩⟩, rfl⟩
  split
  · exact Or.inr ⟨_, ⟨by decide, Or.inl (by decide)⟩, rfl⟩
  · exact Or.inl rfl

theorem lead_long (b : UInt8) : ∀ p ∈ (lead b).1, p.Long := by
  intro p hp
  rcases lead_cases b with ⟨-, heq⟩ | heq | ⟨q, hq, heq⟩
  · rw [heq] at hp
    cases hp
  · rw [heq] at hp
    cases hp
  · rw [heq] at hp
    cases hp
    exact hq

theorem step_long (hs : ∀ p ∈ s, p.Long) (b : UInt8) : ∀ p ∈ (step s b).1, p.Long := by
  intro p hp
  cases s with
  | none => exact lead_long b p hp
  | some q =>
    obtain ⟨hlow, hvalue⟩ := hs q rfl
    simp only [step] at hp
    split at hp
    · next hin =>
      split at hp
      · cases hp
      · cases hp
        exact ⟨Nat.le_refl _, Or.inl (by simp only; omega)⟩
    · exact lead_long b p hp

theorem stateAfter_long (hs : ∀ p ∈ s, p.Long) (bytes : List UInt8) :
    ∀ p ∈ stateAfter s bytes, p.Long := by
  induction bytes generalizing s with
  | nil => exact hs
  | cons b bytes ih => exact ih (step_long hs b)

/-- **An octet below 80₁₆ is read as itself** in any octets: what stands before it is read as if nothing
followed, and what follows as if nothing stood before. -/
theorem decode_append_ascii (before : List UInt8) (hb : b.toNat < 0x80) (after : List UInt8) :
    decode (before ++ b :: after) = decode before ++ Char.ofNat b.toNat :: decode after := by
  obtain ⟨done, hwhole, hbefore⟩ := decodeFrom_append none before (b :: after)
  have hstep := step_ascii (stateAfter none before) b hb fun p hp =>
    (stateAfter_long (by simp) before p hp).1
  rw [decode, hwhole, decodeFrom_cons hstep, decodeFrom_done, decode, hbefore, decode]
  simp

theorem toNat_charOfNat {n : Nat} (h : n.isValidChar) : (Char.ofNat n).toNat = n := by
  rw [Char.ofNat, dif_pos h]
  rfl

/-- A number from 80₁₆ on makes no character below 80₁₆, but for the one that stands for every number
which makes none. -/
theorem charOfNat_small {n : Nat} (hn : 0x80 ≤ n) (hsmall : (Char.ofNat n).toNat < 0x80) :
    Char.ofNat n = '\x00' := by
  by_cases h : n.isValidChar
  · rw [toNat_charOfNat h] at hsmall
    omega
  · rw [Char.ofNat, dif_neg h]
    rfl

/-- A character below 80₁₆ that an octet completes is this octet. -/
theorem mem_step (hs : ∀ p ∈ s, p.Long) (hc : c ∈ (step s b).2) (hsmall : c.toNat < 0x80)
    (hnul : c ≠ '\x00') : b = UInt8.ofNat c.toNat := by
  have hlead : c ∈ (lead b).2 → b = UInt8.ofNat c.toNat := by
    intro hc
    rcases lead_cases b with ⟨hb, heq⟩ | heq | ⟨p, -, heq⟩
    · rw [heq, List.mem_singleton] at hc
      rw [hc, toNat_charOfNat (Or.inl (by omega)), UInt8.ofNat_toNat]
    · rw [heq, List.mem_singleton] at hc
      rw [hc] at hsmall
      exact absurd hsmall (by decide)
    · rw [heq] at hc
      cases hc
  cases s with
  | none => exact hlead hc
  | some p =>
    obtain ⟨hlow, hvalue⟩ := hs p rfl
    simp only [step] at hc
    split at hc
    · next hin =>
      split at hc
      · next hmissing =>
        rw [List.mem_singleton] at hc
        rw [hc] at hsmall hnul
        exact absurd (charOfNat_small (by omega) hsmall) hnul
      · cases hc
    · rcases List.mem_cons.1 hc with rfl | hc
      · exact absurd hsmall (by decide)
      · exact hlead hc

theorem mem_decodeFrom {bytes : List UInt8} (hs : ∀ p ∈ s, p.Long) (h : c ∈ decodeFrom s [] bytes)
    (hsmall : c.toNat < 0x80) (hnul : c ≠ '\x00') : UInt8.ofNat c.toNat ∈ bytes := by
  induction bytes generalizing s with
  | nil =>
    cases s with
    | none => cases h
    | some p =>
      rw [List.mem_singleton.1 h] at hsmall
      exact absurd hsmall (by decide)
  | cons b bytes ih =>
    rw [decodeFrom_cons (rfl : step s b = ((step s b).1, (step s b).2)), decodeFrom_done,
      List.append_nil, List.reverse_reverse] at h
    rcases List.mem_append.1 h with h | h
    · rw [mem_step hs h hsmall hnul]
      exact List.mem_cons_self
    · exact List.mem_cons_of_mem b (ih (step_long hs b) h)

/-- **A character below 80₁₆ in what any octets are read as is one of these octets.** -/
theorem mem_decode {bytes : List UInt8} (h : c ∈ decode bytes) (hsmall : c.toNat < 0x80)
    (hnul : c ≠ '\x00') : UInt8.ofNat c.toNat ∈ bytes :=
  mem_decodeFrom (by simp) h hsmall hnul

end Boundaries
end Utf8
end VoiceRelay
