import VoiceRelay.Proofs.ChatLines
import VoiceRelay.Proofs.EscapedForm
import VoiceRelay.Proofs.RecordLines

/-!
# The normal form of a chat text

What is sent of a chat text are its words, with one space between neighbours. The relay cuts a text at the
blanks of Unicode and escapes blanks of ASCII alone; no other blank is left once the text is cut, so what
is sent is one token. It is the written form of the normalised text, it is in normal form itself, and the
command that carries it is one line with the two fields that were meant.

**Design.** `Text.Runs` tells the words of a text as its longest runs without a blank, without the function
that cuts it. Of a text without words nothing is sent.

**Results.**

- `words_eq_iff`: the words of a text are its longest runs without a blank.
- `words_join`: words joined by single spaces are cut again as they were.
- `encodeWords_runs`: what is sent is the written form of the words with single spaces.
- `parse_chat`: the fields of the command.
- `normal_form`: the normal form of a chat text.
-/

namespace VoiceRelay

section Defs

/-- A text is made of words, its longest runs without a blank, and runs of blanks between them. -/
inductive Text.Runs : List Char → List (List Char) → Prop
  | blanks {gap : List Char} : (∀ c ∈ gap, isBlank c = true) → Runs gap []
  | word {gap w rest : List Char} {ws : List (List Char)} : (∀ c ∈ gap, isBlank c = true) →
      w ≠ [] → (∀ c ∈ w, isBlank c = false) → (∀ c ∈ rest.head?, isBlank c = true) → Runs rest ws →
      Runs (gap ++ (w ++ rest)) (w :: ws)

/-- Words with one space between neighbours. -/
def Text.singleSpaced (ws : List (List Char)) : String := .ofList (join [' '] ws)

end Defs

section Words

variable {cs gap w rest : List Char} {ws : List (List Char)}

theorem words_gap (hgap : ∀ c ∈ gap, Text.isBlank c = true) (rest : List Char) :
    Text.words (gap ++ rest) = Text.words rest := by
  induction gap with
  | nil => rfl
  | cons c gap ih =>
    have hc : Text.isBlank c = true := hgap c List.mem_cons_self
    rw [← ih fun d hd => hgap d (List.mem_cons_of_mem c hd)]
    simp [Text.words, Text.pieces_cons, hc]

/-- A run without a blank that ends before a blank, or with the text, is a word. -/
theorem words_run (hne : w ≠ []) (hw : ∀ c ∈ w, Text.isBlank c = false)
    (hrest : ∀ c ∈ rest.head?, Text.isBlank c = true) :
    Text.words (w ++ rest) = w :: Text.words rest := by
  have hkept : ∀ ps, (w :: ps).filter (fun v => !v.isEmpty) = w :: ps.filter (fun v => !v.isEmpty) :=
    fun ps => List.filter_cons_of_pos (by simpa using hne)
  cases rest with
  | nil =>
    rw [Text.words, Text.pieces_append _ w hw, Text.pieces_nil, foldr_extendFirst, List.append_nil, hkept]
    rfl
  | cons c rest =>
    have hc : Text.isBlank c = true := hrest c rfl
    rw [Text.words, Text.pieces_append _ w hw, Text.pieces_cons, if_pos hc, foldr_extendFirst,
      List.append_nil, hkept]
    simp [Text.words, Text.pieces_cons, hc]

theorem Text.Runs.words_eq (h : Runs cs ws) : words cs = ws := by
  induction h with
  | @blanks gap hgap => exact (words_eq_nil_iff gap).2 hgap
  | word hgap hne hw hrest _ ih => rw [words_gap hgap, words_run hne hw hrest, ih]

/-- Every text is made of some words. -/
theorem exists_runs (cs : List Char) : ∃ ws, Text.Runs cs ws := by
  -- What follows the first word is shorter.
  induction hn : cs.length using Nat.strong_induction_on generalizing cs with
  | _ n ih =>
    subst hn
    have hgap : ∀ c ∈ cs.takeWhile Text.isBlank, Text.isBlank c = true :=
      fun c hc => List.mem_takeWhile_imp hc
    rcases hcs : cs.dropWhile Text.isBlank with _ | ⟨c, tail⟩
    · exact ⟨[], .blanks (List.dropWhile_eq_nil_iff.1 hcs)⟩
    · have hc : Text.isBlank c = false := by
        have hhead := List.head?_dropWhile_not Text.isBlank cs
        rw [hcs] at hhead
        simpa using hhead
      have hlength : (c :: tail).length ≤ cs.length := hcs ▸ List.length_dropWhile_le _ _
      have hshorter : (tail.dropWhile (fun d => !Text.isBlank d)).length < cs.length :=
        Nat.lt_of_le_of_lt (List.length_dropWhile_le _ _) (Nat.lt_of_succ_le hlength)
      obtain ⟨ws, hws⟩ := ih _ hshorter _ rfl
      refine ⟨(c :: tail.takeWhile (fun d => !Text.isBlank d)) :: ws, ?_⟩
      have heq : cs = cs.takeWhile Text.isBlank ++ ((c :: tail.takeWhile (fun d => !Text.isBlank d)) ++
          tail.dropWhile (fun d => !Text.isBlank d)) := by
        rw [List.cons_append, List.takeWhile_append_dropWhile, ← hcs, List.takeWhile_append_dropWhile]
      rw [heq]
      refine .word hgap (List.cons_ne_nil _ _) (fun d hd => ?_) (fun d hd => ?_) hws
      · rcases List.mem_cons.1 hd with rfl | hd
        · exact hc
        · simpa using List.mem_takeWhile_imp hd
      · have hhead := List.head?_dropWhile_not (fun d => !Text.isBlank d) tail
        rw [Option.mem_def] at hd
        rw [hd] at hhead
        simpa using hhead

/-- **The words of a text are its longest runs without a blank.** -/
theorem words_eq_iff : Text.words cs = ws ↔ Text.Runs cs ws := by
  constructor
  · rintro rfl
    obtain ⟨ws, hws⟩ := exists_runs cs
    rwa [hws.words_eq]
  · exact Text.Runs.words_eq

theorem not_blank_of_words (hw : w ∈ Text.words cs) {c : Char} (hc : c ∈ w) :
    Text.isBlank c = false := by
  have hruns : Text.Runs cs (Text.words cs) := words_eq_iff.1 rfl
  generalize Text.words cs = ws at hw hruns
  induction hruns with
  | blanks => cases hw
  | word _ _ hplain _ _ ih =>
    rcases List.mem_cons.1 hw with rfl | hw
    · exact hplain c hc
    · exact ih hw

/-- **Words joined by single spaces are cut again as they were.** -/
theorem words_join (cs : List Char) : Text.words (Text.join [' '] (Text.words cs)) = Text.words cs := by
  rcases List.eq_nil_or_concat (Text.words cs) with hnil | ⟨front, last, hws⟩
  · rw [hnil]
    rfl
  · have hne : Text.words cs ≠ [] := by simp [hws]
    have hpieces : Text.pieces Text.isBlank (Text.join [' '] (Text.words cs)) = Text.words cs :=
      pieces_join rfl hne fun w hw c hc => not_blank_of_words hw hc
    have hkept : (Text.words cs).filter (fun w => !w.isEmpty) = Text.words cs :=
      List.filter_eq_self.2 fun w hw => by simpa using words_ne_nil hw
    rw [Text.words, hpieces, hkept]

end Words

section Escaping

/-- Escaping the joined words is joining the escaped words. -/
theorem encodeChars_join (ws : List (List Char)) :
    Escape.encodeChars (Text.join [' '] ws) = Text.join ['\\', 's'] (ws.map Escape.encodeChars) := by
  induction ws with
  | nil => rfl
  | cons w ws ih =>
    cases ws with
    | nil => rfl
    | cons v ws =>
      have hspace : Escape.encodeChars [' '] = ['\\', 's'] := rfl
      rw [List.map_cons, List.map_cons, Text.join, Text.join, ← List.map_cons, ← ih, ← hspace]
      simp [Escape.encodeChars]

/-- **What is sent of a text with words** is the written form of the words with single spaces. -/
theorem encodeWords_runs {text : String} {ws : List (List Char)} (h : Text.Runs text.toList ws)
    (hne : ws ≠ []) :
    Escape.encodeWords text = some (Escape.encode (Text.singleSpaced ws)) := by
  unfold Escape.encodeWords
  rw [h.words_eq]
  cases ws with
  | nil => exact absurd rfl hne
  | cons w ws => rw [Escape.encode, Text.singleSpaced, String.toList_ofList, encodeChars_join]

theorem encodeWords_eq_none_iff (text : String) :
    Escape.encodeWords text = none ↔ ∀ c ∈ text.toList, Text.isBlank c = true := by
  rw [← command_eq_none_iff, Request.command, Option.map_eq_none_iff]

/-- A character of a written value is a backslash, a letter of an escape, or a plain character of the
value. -/
theorem mem_encodeChars_cases {cs : List Char} {d : Char} (h : d ∈ Escape.encodeChars cs) :
    d = '\\' ∨ d ∈ Escape.letters ∨ d ∈ cs ∧ d ∉ Escape.special := by
  obtain ⟨c, hc, hd⟩ := List.mem_flatMap.1 h
  rcases hl : Escape.escapeLetter c with _ | letter
  · rw [Escape.encodeChar_of_plain hl] at hd
    obtain rfl := List.mem_singleton.1 hd
    refine Or.inr (Or.inr ⟨hc, fun hspecial => ?_⟩)
    obtain ⟨letter, hl'⟩ := Escape.mem_special_iff.1 hspecial
    cases hl.symm.trans hl'
  · rw [Escape.encodeChar_of_escape hl] at hd
    rcases List.mem_cons.1 hd with rfl | hd
    · exact Or.inl rfl
    · obtain rfl := List.mem_singleton.1 hd
      exact Or.inr (Or.inl (Escape.mem_letters_iff.2 ⟨c, Escape.plainOf_escapeLetter hl⟩))

/-- No blank is left in escaped words. -/
theorem not_blank_encodeChars {ws : List (List Char)}
    (hws : ∀ w ∈ ws, ∀ c ∈ w, Text.isBlank c = false) {d : Char}
    (hd : d ∈ Escape.encodeChars (Text.join [' '] ws)) : Text.isBlank d = false := by
  have hletters : ∀ c ∈ Escape.letters, Text.isBlank c = false :=
    List.all_iff_forall_prop.1 (by decide)
  rcases mem_encodeChars_cases hd with rfl | hletter | ⟨hmem, hplain⟩
  · rfl
  · exact hletters d hletter
  · rcases mem_join hmem with hspace | ⟨w, hw, hc⟩
    · exact absurd (by rw [List.mem_singleton.1 hspace]; decide) hplain
    · exact hws w hw d hc

end Escaping

section Command

/-- **The fields of a chat command**: the name of the command without a value, and the text. -/
theorem parse_chat (value : String) :
    Record.parse ("gm msg=" ++ Escape.encode value) = ⟨[("gm", ""), ("msg", value)]⟩ := by
  have hkey : Record.Key "msg" := by decide +kernel
  have htokens : ("gm msg=" ++ Escape.encode value).toList =
      Text.join [' '] [['g', 'm'], Record.fieldChars ("msg", value)] := by
    rw [String.toList_append, Escape.encode, String.toList_ofList]
    simp [Text.join, Record.fieldChars]
  have hplain : ∀ w ∈ [['g', 'm'], Record.fieldChars ("msg", value)], ∀ c ∈ w, (c == ' ') = false := by
    intro w hw c hc
    rw [beq_eq_false_iff_ne]
    simp only [List.mem_cons, List.not_mem_nil, or_false] at hw
    rcases hw with rfl | rfl
    · rintro rfl
      revert hc
      decide
    · exact (Record.mem_fieldChars hkey hc).1
  have hpieces : Text.pieces (· == ' ')
      (Text.join [' '] [['g', 'm'], Record.fieldChars ("msg", value)]) =
        [['g', 'm'], Record.fieldChars ("msg", value)] :=
    pieces_join (by decide) (List.cons_ne_nil _ _) hplain
  have hname : Record.fieldOfToken ['g', 'm'] = ("gm", "") := rfl
  have hvalue : Record.fieldOfToken (Record.fieldChars ("msg", value)) = ("msg", value) :=
    Record.fieldOfToken_fieldChars (f := ("msg", value)) hkey
  have hkept : (Record.fieldChars ("msg", value)).isEmpty = false := by simp [Record.fieldChars]
  have hfields : Record.fieldsOf (Text.join [' '] [['g', 'm'], Record.fieldChars ("msg", value)]) =
      [("gm", ""), ("msg", value)] := by
    rw [Record.fieldsOf, hpieces]
    simp [hkept, hname, hvalue]
  have hdistinct : ([("gm", ""), ("msg", value)].map Prod.fst).Nodup := by simp
  rw [Record.parse, htokens, Record.ofChars, hfields, Record.ofFields_eq hdistinct]

end Command

section Law

/-- **The normal form of a chat text.** Nothing is sent of a text of blanks alone, and of no other text.
What is sent is the written form of the words of the text with single spaces between them. It is not
empty, holds no blank and no bar, and is what is sent of the text that it stands for. The command that
carries it is one line, of a field `gm` and a field `msg` whose value is that text. -/
theorem normal_form (text : String) :
    (Escape.encodeWords text = none ↔ ∀ c ∈ text.toList, Text.isBlank c = true) ∧
    ∀ e, Escape.encodeWords text = some e →
      ∃ ws, Text.Runs text.toList ws ∧ Escape.decode e = Text.singleSpaced ws ∧
        e = Escape.encode (Text.singleSpaced ws) ∧ e ≠ "" ∧
        (∀ c ∈ e.toList, Text.isBlank c = false ∧ c ≠ '|') ∧
        Escape.encodeWords (Escape.decode e) = some e ∧
        Record.parse ("gm msg=" ++ e) = ⟨[("gm", ""), ("msg", Text.singleSpaced ws)]⟩ ∧
        Line.frame ("gm msg=" ++ e) = some (Utf8.encode ("gm msg=" ++ e).toList ++ [Line.lf]) := by
  refine ⟨encodeWords_eq_none_iff text, fun e he => ?_⟩
  have hruns : Text.Runs text.toList (Text.words text.toList) := words_eq_iff.1 rfl
  generalize hws : Text.words text.toList = ws at hruns
  have hne : ws ≠ [] := by
    rintro rfl
    rw [words_eq_nil_iff, ← encodeWords_eq_none_iff, he] at hws
    cases hws
  obtain rfl : Escape.encode (Text.singleSpaced ws) = e :=
    Option.some.inj ((encodeWords_runs hruns hne).symm.trans he)
  have htoken : Token (Escape.encode (Text.singleSpaced ws)).toList := encodeWords_token he
  have hback : Escape.decode (Escape.encode (Text.singleSpaced ws)) = Text.singleSpaced ws :=
    Escape.decode_encode _
  have hagain : Text.Runs (Text.singleSpaced ws).toList ws := by
    rw [Text.singleSpaced, String.toList_ofList, ← words_eq_iff, ← hws, words_join]
  refine ⟨ws, hruns, hback, rfl, fun hempty => ?_, fun c hc => ⟨?_, (htoken.2 c hc).2.1⟩, ?_,
    parse_chat _, ?_⟩
  · exact htoken.1 (by rw [hempty]; rfl)
  · rw [Escape.encode, String.toList_ofList, Text.singleSpaced, String.toList_ofList] at hc
    refine not_blank_encodeChars (fun w hw c hc => ?_) hc
    exact not_blank_of_words (hws ▸ hw) hc
  · rw [hback]
    exact encodeWords_runs hagain hne
  · have hunbroken : Line.breaks ("gm msg=" ++ Escape.encode (Text.singleSpaced ws)) = false := by
      rw [breaks_append, encode_unbroken]
      rfl
    rw [Line.frame, hunbroken]
    rfl

/-- A text with blanks of Unicode, a tab, a bar and a backslash. -/
theorem normal_form_odd_blanks :
    Escape.encodeWords "\u3000a|b\t\u00A0 \\s\u2003" = some "a\\pb\\s\\\\s" ∧
      Escape.decode "a\\pb\\s\\\\s" = "a|b \\s" := by
  have hsent : Escape.encodeWords "\u3000a|b\t\u00A0 \\s\u2003" = some "a\\pb\\s\\\\s" := by
    decide +kernel
  obtain ⟨ws, hruns, hdecode, -⟩ := (normal_form _).2 _ hsent
  refine ⟨hsent, hdecode.trans ?_⟩
  rw [← hruns.words_eq]
  decide +kernel

end Law

end VoiceRelay
