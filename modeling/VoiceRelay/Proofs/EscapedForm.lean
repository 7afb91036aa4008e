import VoiceRelay.Query.Escape
import Mathlib.Data.Bool.AllAny
import Mathlib.Data.Set.Operations

/-!
# The language of escaped values

A text is the written form of a value exactly if it consists of plain characters and of known escapes.
Writing takes different values to different texts and reaches every text of this language; reading is
its inverse there, and nowhere else does writing again what was read give the text back.

**Design.** `Escape.Escaped` is the language, said by two lists: the characters that never stand for
themselves, and the letters that may follow a backslash. It names no function, so it can be compared with both
directions. Its induction follows a text from the front, one plain character or one whole escape at a
time, which is how runs of backslashes are told apart.

**Results.**

- `mem_special_iff`, `mem_letters_iff`: the two lists are the domains of the two tables.
- `escaped_encodeChars`, `encodeChars_decodeChars`: what is written is in the language, and what is in
  the language is written again as it was.
- `Escaped.within`: where a special character stands in the language.
- `written_form`: writing is a bijection onto the language.
-/

namespace VoiceRelay
namespace Escape

section Defs

/-- The characters that a written value never holds but in an escape. -/
def special : List Char :=
  ['\\', '/', ' ', '|', '\n', '\r', '\t', '\x0B', '\x0C', '\x07', '\x08']

/-- The letters of the known escapes. -/
def letters : List Char := ['\\', '/', 's', 'p', 'n', 'r', 't', 'v', 'f', 'a', 'b']

/-- A text of plain characters and known escapes. -/
inductive Escaped : List Char → Prop
  | nil : Escaped []
  | plain {c : Char} {cs : List Char} : c ∉ special → Escaped cs → Escaped (c :: cs)
  | escape {letter : Char} {cs : List Char} : letter ∈ letters → Escaped cs →
      Escaped ('\\' :: letter :: cs)

/-- What stands after `front` in `cs` is the backslash or the letter of a known escape, and not of two
that overlap: before and after the escape stand whole characters and escapes. -/
def Within (front cs : List Char) : Prop :=
  ∃ before letter after, Escaped before ∧ letter ∈ letters ∧ Escaped after ∧
    cs = before ++ '\\' :: letter :: after ∧ (front = before ∨ front = before ++ ['\\'])

end Defs

section Tables

/-- The special characters are those that have an escape. -/
theorem mem_special_iff {c : Char} : c ∈ special ↔ ∃ letter, escapeLetter c = some letter := by
  constructor
  · intro h
    simp only [special, List.mem_cons, List.not_mem_nil, or_false] at h
    rcases h with rfl | rfl | rfl | rfl | rfl | rfl | rfl | rfl | rfl | rfl | rfl
    all_goals exact ⟨_, rfl⟩
  · rintro ⟨letter, h⟩
    unfold escapeLetter at h
    split at h
    all_goals first | decide | cases h

/-- The letters are those that a special character is read from. -/
theorem mem_letters_iff {letter : Char} : letter ∈ letters ↔ ∃ c, plainOf letter = some c := by
  constructor
  · intro h
    simp only [letters, List.mem_cons, List.not_mem_nil, or_false] at h
    rcases h with rfl | rfl | rfl | rfl | rfl | rfl | rfl | rfl | rfl | rfl | rfl
    all_goals exact ⟨_, rfl⟩
  · rintro ⟨c, h⟩
    unfold plainOf at h
    split at h
    all_goals first | decide | cases h

theorem escapeLetter_of_not_mem {c : Char} (h : c ∉ special) : escapeLetter c = none := by
  rw [Option.eq_none_iff_forall_ne_some]
  exact fun letter hl => h (mem_special_iff.2 ⟨letter, hl⟩)

theorem escapeLetter_plainOf {c letter : Char} (h : plainOf letter = some c) :
    escapeLetter c = some letter := by
  unfold plainOf at h
  split at h
  all_goals cases h
  all_goals rfl

/-- Of the special characters only the backslash and the slash are letters. -/
theorem letters_special {c : Char} (hletter : c ∈ letters) (hspecial : c ∈ special) :
    c = '\\' ∨ c = '/' := by
  have hall : ∀ c ∈ letters, c ∈ special → c = '\\' ∨ c = '/' :=
    List.all_iff_forall_prop.1 (by decide)
  exact hall c hletter hspecial

end Tables

section Language

variable {cs front rest : List Char} {c : Char}

theorem encodeChars_cons (c : Char) (cs : List Char) :
    encodeChars (c :: cs) = encodeChar c ++ encodeChars cs := List.flatMap_cons

theorem encodeChar_of_plain (h : escapeLetter c = none) : encodeChar c = [c] := by
  simp only [encodeChar, h]

theorem encodeChar_of_escape {letter : Char} (h : escapeLetter c = some letter) :
    encodeChar c = ['\\', letter] := by
  simp only [encodeChar, h]

theorem encodeChars_append (cs ds : List Char) :
    encodeChars (cs ++ ds) = encodeChars cs ++ encodeChars ds := List.flatMap_append

/-- Plain characters are written as they stand. -/
theorem encodeChars_of_plain (h : ∀ c ∈ cs, c ∉ special) : encodeChars cs = cs := by
  induction cs with
  | nil => rfl
  | cons c cs ih =>
    have hc := escapeLetter_of_not_mem (h c List.mem_cons_self)
    rw [encodeChars_cons, encodeChar_of_plain hc, ih fun d hd => h d (List.mem_cons_of_mem c hd)]
    rfl

/-- **What is written is in the language.** -/
theorem escaped_encodeChars (cs : List Char) : Escaped (encodeChars cs) := by
  induction cs with
  | nil => exact .nil
  | cons c cs ih =>
    rw [encodeChars_cons]
    rcases hc : escapeLetter c with _ | letter
    · rw [encodeChar_of_plain hc]
      refine .plain (fun hmem => ?_) ih
      obtain ⟨letter, hl⟩ := mem_special_iff.1 hmem
      cases hc.symm.trans hl
    · rw [encodeChar_of_escape hc]
      exact .escape (mem_letters_iff.2 ⟨c, plainOf_escapeLetter hc⟩) ih

/-- **What is in the language is written again as it was.** -/
theorem encodeChars_decodeChars (h : Escaped cs) : encodeChars (decodeChars cs) = cs := by
  induction h with
  | nil => rfl
  | @plain c cs hc _ ih =>
    have hplain := escapeLetter_of_not_mem hc
    rw [decodeChars_plain c (ne_backslash_of_plain hplain), encodeChars_cons,
      encodeChar_of_plain hplain, ih]
    rfl
  | @escape letter cs hl _ ih =>
    obtain ⟨c, hc⟩ := mem_letters_iff.1 hl
    rw [decodeChars_escape letter c hc, encodeChars_cons,
      encodeChar_of_escape (escapeLetter_plainOf hc), ih]
    rfl

/-- **A special character stands in an escape**, as its backslash or as its letter. -/
theorem Escaped.within (h : Escaped cs) (hcs : cs = front ++ c :: rest) (hc : c ∈ special) :
    Within front cs := by
  induction h generalizing front with
  | nil => simp at hcs
  | @plain d cs hd hrest ih =>
    rcases front with _ | ⟨a, front⟩
    · obtain ⟨rfl, -⟩ := List.cons.inj hcs
      exact absurd hc hd
    · obtain ⟨rfl, htail⟩ := List.cons.inj hcs
      obtain ⟨before, letter, after, hbefore, hl, hafter, rfl, hfront⟩ := ih htail
      exact ⟨d :: before, letter, after, .plain hd hbefore, hl, hafter, rfl,
        hfront.imp (congrArg _) (congrArg _)⟩
  | @escape l cs hl hrest ih =>
    rcases front with _ | ⟨a, _ | ⟨b, front⟩⟩
    · exact ⟨[], l, cs, .nil, hl, hrest, rfl, Or.inl rfl⟩
    · obtain ⟨rfl, -⟩ := List.cons.inj hcs
      exact ⟨[], l, cs, .nil, hl, hrest, rfl, Or.inr rfl⟩
    · obtain ⟨rfl, htail⟩ := List.cons.inj hcs
      obtain ⟨rfl, hmore⟩ := List.cons.inj htail
      obtain ⟨before, letter, after, hbefore, hletter, hafter, rfl, hfront⟩ := ih hmore
      have hboth : ∀ {a b : List Char}, a = b → '\\' :: l :: a = '\\' :: l :: b :=
        fun h => congrArg (fun cs => '\\' :: l :: cs) h
      exact ⟨'\\' :: l :: before, letter, after, .escape hl hbefore, hletter, hafter, rfl,
        hfront.imp hboth hboth⟩

/-- No special character but the backslash and the slash stands in a text of the language. -/
theorem Escaped.special_mem (h : Escaped cs) (hmem : c ∈ cs) (hc : c ∈ special) :
    c = '\\' ∨ c = '/' := by
  obtain ⟨front, rest, hcs⟩ := List.append_of_mem hmem
  obtain ⟨before, letter, after, -, hl, -, heq, rfl | rfl⟩ := h.within hcs hc
  · -- The character is the backslash of the escape.
    rw [hcs, List.append_cancel_left_eq] at heq
    exact Or.inl (List.cons.inj heq).1
  · -- It is the letter.
    rw [hcs, List.append_assoc, List.append_cancel_left_eq] at heq
    obtain ⟨-, heq⟩ := List.cons.inj heq
    obtain ⟨rfl, -⟩ := List.cons.inj heq
    exact letters_special hl hc

end Language

section Law

/-- **Writing a value is a bijection onto the language.** What is written is read back; it holds none of
the characters that end a field, a record or a line, and no backslash or slash but in a known escape.
A text is written again as it was exactly if it is in the language. -/
theorem written_form :
    (∀ value : String, decode (encode value) = value ∧
      (∀ c ∈ [' ', '|', '\n', '\r', '\t', '\x0B', '\x0C', '\x07', '\x08'],
        c ∉ (encode value).toList) ∧
      ∀ front c rest, (encode value).toList = front ++ c :: rest → c = '\\' ∨ c = '/' →
        Within front (encode value).toList) ∧
    (∀ written : String, encode (decode written) = written ↔ Escaped written.toList) ∧
    Function.Injective encode ∧ Set.range encode = {written | Escaped written.toList} := by
  have hescaped : ∀ value, Escaped (encode value).toList := fun value => by
    rw [encode, String.toList_ofList]
    exact escaped_encodeChars value.toList
  have hagain : ∀ written : String, Escaped written.toList → encode (decode written) = written := by
    intro written h
    rw [encode, decode, String.toList_ofList, encodeChars_decodeChars h, String.ofList_toList]
  have hback : Function.LeftInverse decode encode := decode_encode
  refine ⟨fun value => ⟨decode_encode value, fun c hc hmem => ?_, fun front c rest hcs hc => ?_⟩,
    fun written => ⟨fun h => ?_, hagain written⟩, hback.injective, Set.ext fun written => ⟨?_, ?_⟩⟩
  · have hends : ∀ c ∈ [' ', '|', '\n', '\r', '\t', '\x0B', '\x0C', '\x07', '\x08'],
        c ∈ special ∧ c ≠ '\\' ∧ c ≠ '/' := List.all_iff_forall_prop.1 (by decide)
    obtain ⟨hspecial, hback, hslash⟩ := hends c hc
    exact ((hescaped value).special_mem hmem hspecial).elim hback hslash
  · refine (hescaped value).within hcs ?_
    rcases hc with rfl | rfl <;> decide
  · rw [← h]
    exact hescaped (decode written)
  · rintro ⟨value, rfl⟩
    exact hescaped value
  · exact fun h => ⟨decode written, hagain written h⟩

/-- A backslash before an unknown letter is read, and written again as something else. -/
example : decode "\\x" = "\\x" ∧ encode (decode "\\x") = "\\\\x" := by decide +kernel

end Law

end Escape
end VoiceRelay
