import VoiceRelay.Proofs.Commands
import Mathlib.Data.List.DropRight
import Mathlib.Data.List.Nodup

/-!
# Records written on a line

A field is written as its key, an equals sign and the escaped value; a record as its fields with a space
between neighbours; several records with a bar between neighbours. Reading such a line gives the records
back, whatever their values hold: the escapes leave no space and no bar in a value, and of the equals
signs of a field only the first one counts.

One run of characters does not come back. The reader takes off the blanks that a line ends in, and its
blanks are those of Unicode, while the escapes cover the blanks of ASCII. A run of other blanks at the
end of the last value is lost, and nothing but this run.

**Design.** `Record.Writable` tells which records have a written form. `Escape.isBare` picks out the
blanks that an escaped value holds as they stand, and `Escape.shear` takes those at the end off a value: trimming a
written line is writing the line with its last value shorn.

**Results.**

- `pieces_join`: texts without a cutting element are the pieces of their join.
- `ofChars_toChars`: a written record is read back.
- `trimEnd_lineChars`: what trimming does to a written line.
- `records_read_back`: what reading a written line gives.
-/

namespace VoiceRelay

section Defs

/-- Whether a character is a blank that stands in an escaped value as it is. -/
def Escape.isBare (c : Char) : Bool := Text.isBlank c && Escape.encodeChar c == [c]

/-- A value without the run of bare blanks that it ends in. -/
def Escape.shear (value : String) : String := .ofList (value.toList.rdropWhile Escape.isBare)

namespace Record

/-- A key that can be written: not empty, and without blanks, equals signs and bars. -/
def Key (key : String) : Prop :=
  key.toList ≠ [] ∧ ∀ c ∈ key.toList, Text.isBlank c = false ∧ c ≠ '=' ∧ c ≠ '|'

-- The instance is named, so that the characters of the key are tried and not all characters.
instance : DecidablePred Key := fun key =>
  @instDecidableAnd _ _ inferInstance (List.decidableBAll _ key.toList)

/-- A record that can be written: it has a field, and its keys are different and can be written. -/
structure Writable (r : Record) : Prop where
  nonempty : r.fields ≠ []
  distinct : r.keys.Nodup
  keys : ∀ key ∈ r.keys, Key key

instance : DecidablePred Writable := fun r =>
  decidable_of_iff (r.fields ≠ [] ∧ r.keys.Nodup ∧ ∀ key ∈ r.keys, Key key)
    ⟨fun h => ⟨h.1, h.2.1, h.2.2⟩, fun h => ⟨h.nonempty, h.distinct, h.keys⟩⟩

/-- A field as it is written. -/
def fieldChars (f : String × String) : List Char :=
  f.1.toList ++ '=' :: Escape.encodeChars f.2.toList

/-- A record as it is written. -/
def toChars (r : Record) : List Char := Text.join [' '] (r.fields.map fieldChars)

/-- Records as they are written on a line. -/
def lineChars (records : List Record) : List Char := Text.join ['|'] (records.map toChars)

/-- The line that holds some records. -/
def writeLine (records : List Record) : String := .ofList (lineChars records)

end Record

end Defs

section Cutting

variable {α : Type} {cut : α → Bool}

theorem foldr_extendFirst (w p : List α) (ps : List (List α)) :
    w.foldr Text.extendFirst (p :: ps) = (w ++ p) :: ps := by
  induction w with
  | nil => rfl
  | cons a w ih => rw [List.foldr_cons, ih, Text.extendFirst, List.cons_append]

/-- **Texts without a cutting element are the pieces of their join.** -/
theorem pieces_join {sep : α} (hsep : cut sep = true) {ws : List (List α)} (hne : ws ≠ [])
    (hws : ∀ w ∈ ws, ∀ a ∈ w, cut a = false) : Text.pieces cut (Text.join [sep] ws) = ws := by
  induction ws with
  | nil => exact absurd rfl hne
  | cons w ws ih =>
    have hw : ∀ a ∈ w, cut a = false := hws w List.mem_cons_self
    cases ws with
    | nil =>
      have hpieces := Text.pieces_append cut w hw []
      rw [List.append_nil, Text.pieces_nil, foldr_extendFirst, List.append_nil] at hpieces
      exact hpieces
    | cons v ws =>
      have hrest := ih (List.cons_ne_nil v ws) fun u hu => hws u (List.mem_cons_of_mem w hu)
      have hjoin : Text.join [sep] (w :: v :: ws) = w ++ sep :: Text.join [sep] (v :: ws) := by
        simp [Text.join]
      rw [hjoin, Text.pieces_append cut w hw, Text.pieces_cons, if_pos hsep, hrest,
        foldr_extendFirst, List.append_nil]

theorem splitOnce_append {front : List α} {a : α} (rest : List α)
    (hfront : ∀ b ∈ front, cut b = false) (ha : cut a = true) :
    Text.splitOnce cut (front ++ a :: rest) = some (front, rest) := by
  have hpass : ∀ b ∈ front, (!cut b) = true := fun b hb => by rw [hfront b hb]; rfl
  unfold Text.splitOnce
  rw [List.dropWhile_append_of_pos hpass, List.takeWhile_append_of_pos hpass]
  simp [ha]

/-- What follows the first texts of a join. -/
theorem join_concat (sep : List α) (ws : List (List α)) (w : List α) :
    Text.join sep (ws ++ [w]) = ws.flatMap (· ++ sep) ++ w := by
  induction ws with
  | nil => rfl
  | cons v ws ih =>
    obtain ⟨u, us, hu⟩ := List.exists_cons_of_ne_nil (by simp : ws ++ [w] ≠ [])
    rw [List.cons_append, hu, Text.join, ← hu, ih]
    simp

theorem mem_join {sep : List α} {ws : List (List α)} {a : α} (h : a ∈ Text.join sep ws) :
    a ∈ sep ∨ ∃ w ∈ ws, a ∈ w := by
  induction ws with
  | nil => cases h
  | cons w ws ih =>
    cases ws with
    | nil => exact Or.inr ⟨w, List.mem_cons_self, h⟩
    | cons v ws =>
      simp only [Text.join, List.mem_append] at h
      rcases h with (h | h) | h
      · exact Or.inr ⟨w, List.mem_cons_self, h⟩
      · exact Or.inl h
      · rcases ih h with h | ⟨u, hu, h⟩
        · exact Or.inl h
        · exact Or.inr ⟨u, List.mem_cons_of_mem w hu, h⟩

end Cutting

section Trimming

theorem trimEnd_concat_of_blank {cs : List Char} {c : Char} (h : Text.isBlank c = true) :
    Text.trimEnd (cs ++ [c]) = Text.trimEnd cs :=
  List.rdropWhile_concat_pos _ _ _ h

theorem trimEnd_concat {cs : List Char} {c : Char} (h : Text.isBlank c = false) :
    Text.trimEnd (cs ++ [c]) = cs ++ [c] :=
  List.rdropWhile_concat_neg _ _ _ (by rw [h]; exact Bool.false_ne_true)

theorem encodeChars_concat (cs : List Char) (c : Char) :
    Escape.encodeChars (cs ++ [c]) = Escape.encodeChars cs ++ Escape.encodeChar c := by
  simp [Escape.encodeChars]

/-- A character that is not bare is written with a last character that is no blank. -/
theorem encodeChar_last {c : Char} (h : Escape.isBare c = false) :
    ∃ front last, Escape.encodeChar c = front ++ [last] ∧ Text.isBlank last = false := by
  unfold Escape.isBare Escape.encodeChar at *
  split at h
  · next letter hl =>
    refine ⟨['\\'], letter, rfl, ?_⟩
    unfold Escape.escapeLetter at hl
    split at hl <;> cases hl <;> decide
  · refine ⟨[], c, rfl, ?_⟩
    simpa using h

/-- **Trimming an escaped value shears it**, if what stands in front does not end in a blank. -/
theorem trimEnd_encodeChars {front : List Char} (hfront : Text.trimEnd front = front)
    (cs : List Char) :
    Text.trimEnd (front ++ Escape.encodeChars cs) =
      front ++ Escape.encodeChars (cs.rdropWhile Escape.isBare) := by
  induction cs using List.reverseRecOn with
  | nil => simpa [Escape.encodeChars] using hfront
  | append_singleton cs c ih =>
    by_cases hbare : Escape.isBare c = true
    · obtain ⟨hblank, hplain⟩ : Text.isBlank c = true ∧ Escape.encodeChar c = [c] := by
        simpa [Escape.isBare] using hbare
      rw [List.rdropWhile_concat_pos _ _ _ hbare, encodeChars_concat, hplain,
        ← List.append_assoc, trimEnd_concat_of_blank hblank, ih]
    · obtain ⟨most, last, heq, hlast⟩ := encodeChar_last (by simpa using hbare)
      rw [List.rdropWhile_concat_neg _ _ _ hbare, encodeChars_concat, heq, ← List.append_assoc,
        ← List.append_assoc, trimEnd_concat hlast]

/-- A value is what shearing leaves and a run of bare blanks; what is left does not end in one. -/
theorem shear_append (value : String) :
    ∃ run : String, value = Escape.shear value ++ run ∧
      (∀ c ∈ run.toList, Escape.isBare c = true) ∧
      ∀ c ∈ (Escape.shear value).toList.getLast?, Escape.isBare c = false := by
  refine ⟨.ofList (value.toList.rtakeWhile Escape.isBare), ?_, ?_, ?_⟩
  · rw [Escape.shear, ← String.ofList_append, List.rdropWhile_append_rtakeWhile,
      String.ofList_toList]
  · intro c hc
    rw [String.toList_ofList] at hc
    exact List.mem_rtakeWhile_imp hc
  · intro c hc
    rw [Escape.shear, String.toList_ofList] at hc
    obtain ⟨hne, rfl⟩ := List.mem_getLast?_eq_getLast hc
    simpa using List.rdropWhile_last_not _ _ hne

end Trimming

namespace Record

section Writing

variable {r : Record}

/-- What is written of a key ends neither a field nor a record. -/
theorem Key.plain {key : String} (h : Key key) {c : Char} (hc : c ∈ key.toList) :
    c ≠ ' ' ∧ c ≠ '=' ∧ c ≠ '|' ∧ c ≠ '\n' ∧ c ≠ '\r' := by
  obtain ⟨hblank, heq, hbar⟩ := h.2 c hc
  refine ⟨?_, heq, hbar, ?_, ?_⟩
  all_goals
    rintro rfl
    exact absurd hblank (by decide)

/-- What is written of a field ends neither a field nor a record nor a line. -/
theorem mem_fieldChars {f : String × String} (hkey : Key f.1) {c : Char}
    (hc : c ∈ fieldChars f) : c ≠ ' ' ∧ c ≠ '|' ∧ c ≠ '\n' ∧ c ≠ '\r' := by
  rcases List.mem_append.1 hc with hc | hc
  · obtain ⟨hspace, -, hrest⟩ := hkey.plain hc
    exact ⟨hspace, hrest⟩
  · rcases List.mem_cons.1 hc with rfl | hc
    · decide
    · obtain ⟨hspace, hbar, -, hbreaks⟩ := mem_encodeChars hc
      exact ⟨hspace, hbar, hbreaks⟩

/-- **A written field is read back**: the first equals sign is the one after the key. -/
theorem fieldOfToken_fieldChars {f : String × String} (hkey : Key f.1) :
    fieldOfToken (fieldChars f) = f := by
  have hfront : ∀ c ∈ f.1.toList, (c == '=') = false := fun c hc =>
    beq_eq_false_iff_ne.2 (hkey.plain hc).2.1
  have hsplit : Text.splitOnce (· == '=') (fieldChars f) =
      some (f.1.toList, Escape.encodeChars f.2.toList) :=
    splitOnce_append _ hfront rfl
  simp only [fieldOfToken, hsplit, Escape.decodeChars_encodeChars, String.ofList_toList]

theorem assign_new {key : String} {fields : List (String × String)}
    (h : key ∉ fields.map Prod.fst) (value : String) :
    assign key value fields = fields ++ [(key, value)] := by
  induction fields with
  | nil => rfl
  | cons f fields ih =>
    rw [List.map_cons, List.mem_cons, not_or] at h
    rw [assign, if_neg (Ne.symm h.1), ih h.2, List.cons_append]

/-- Fields with different keys are all fields of the record they give. -/
theorem ofFields_eq {fields : List (String × String)} (h : (fields.map Prod.fst).Nodup) :
    ofFields fields = ⟨fields⟩ := by
  induction fields using List.reverseRecOn with
  | nil => rfl
  | append_singleton fields f ih =>
    rw [List.map_append, List.nodup_append] at h
    have hnew : f.1 ∉ fields.map Prod.fst := fun hin => h.2.2 f.1 hin f.1 (by simp) rfl
    have hput : ofFields (fields ++ [f]) = (ofFields fields).put f.1 f.2 := by
      rw [ofFields, List.foldl_append]
      rfl
    rw [hput, ih h.1, put, assign_new hnew]

theorem Writable.key_of_mem (h : r.Writable) {f : String × String} (hf : f ∈ r.fields) :
    Key f.1 :=
  h.keys f.1 (List.mem_map_of_mem hf)

/-- Words without spaces are the tokens of the text that they are joined to. -/
theorem ofChars_join {ws : List (List Char)} (hne : ws ≠ []) (hws : ∀ w ∈ ws, w ≠ [] ∧ ∀ c ∈ w, c ≠ ' ') :
    ofChars (Text.join [' '] ws) = ofFields (ws.map fieldOfToken) := by
  have hpieces : Text.pieces (· == ' ') (Text.join [' '] ws) = ws :=
    pieces_join (by rfl) hne fun w hw c hc => beq_eq_false_iff_ne.2 ((hws w hw).2 c hc)
  have hkept : ws.filter (fun t => !t.isEmpty) = ws := by
    refine List.filter_eq_self.2 fun w hw => ?_
    simpa using (hws w hw).1
  rw [ofChars, fieldsOf, hpieces, hkept]

theorem map_fieldOfToken {fields : List (String × String)} (h : ∀ f ∈ fields, Key f.1) :
    (fields.map fieldChars).map fieldOfToken = fields := by
  rw [List.map_map]
  refine (List.map_congr_left fun f hf => ?_).trans (List.map_id _)
  exact fieldOfToken_fieldChars (h f hf)

/-- **A written record is read back.** -/
theorem ofChars_toChars (h : r.Writable) : ofChars r.toChars = r := by
  rw [toChars, ofChars_join (by simpa using h.nonempty), map_fieldOfToken fun f => h.key_of_mem,
    ofFields_eq h.distinct]
  intro w hw
  obtain ⟨f, hf, rfl⟩ := List.mem_map.1 hw
  exact ⟨by simp [fieldChars], fun c hc => (mem_fieldChars (h.key_of_mem hf) hc).1⟩

/-- A written record begins with its first key and an equals sign. -/
theorem toChars_head (h : r.Writable) :
    ∃ f fields rest, r.fields = f :: fields ∧ r.toChars = f.1.toList ++ '=' :: rest := by
  obtain ⟨fields⟩ := r
  cases fields with
  | nil => exact absurd rfl h.nonempty
  | cons f fields =>
    cases fields with
    | nil => exact ⟨f, [], _, rfl, rfl⟩
    | cons g fields =>
      refine ⟨f, g :: fields, Escape.encodeChars f.2.toList ++
        ' ' :: Text.join [' '] ((g :: fields).map fieldChars), rfl, ?_⟩
      simp [toChars, Text.join, fieldChars]

/-- A written record begins with no blank. -/
theorem trimStart_toChars (h : r.Writable) (rest : List Char) :
    Text.trimStart (r.toChars ++ rest) = r.toChars ++ rest := by
  obtain ⟨f, fields, tail, hfields, heq⟩ := toChars_head h
  have hkey : Key f.1 := h.key_of_mem (by rw [hfields]; exact List.mem_cons_self)
  obtain ⟨c, cs, hc⟩ := List.exists_cons_of_ne_nil hkey.1
  have hblank := (hkey.2 c (by rw [hc]; exact List.mem_cons_self)).1
  rw [heq, hc, Text.trimStart, List.cons_append, List.cons_append,
    List.dropWhile_cons_of_neg (by simp [hblank])]

/-- A text with a character that is no blank is not blank. -/
theorem trim_of_mem {cs : List Char} {c : Char} (hc : c ∈ cs) (hblank : Text.isBlank c = false) :
    (Text.trim cs).isEmpty = false := by
  rw [List.isEmpty_eq_false_iff]
  intro hnil
  have hall := List.rdropWhile_eq_nil_iff.1 hnil
  rw [← List.takeWhile_append_dropWhile (p := Text.isBlank) (l := cs)] at hc
  rcases List.mem_append.1 hc with hc | hc
  · rw [List.mem_takeWhile_imp hc] at hblank
    cases hblank
  · rw [hall c hc] at hblank
    cases hblank

/-- A written record is not taken for a blank part of a line. -/
theorem trim_toChars (h : r.Writable) : (Text.trim r.toChars).isEmpty = false := by
  obtain ⟨f, fields, tail, -, heq⟩ := toChars_head h
  have hequals : '=' ∈ r.toChars := by simp [heq]
  exact trim_of_mem hequals (by decide)

/-- No character that is written of a record ends a record or a line. -/
theorem mem_toChars (h : r.Writable) {c : Char} (hc : c ∈ r.toChars) :
    c ≠ '|' ∧ c ≠ '\n' ∧ c ≠ '\r' := by
  rcases mem_join hc with hc | ⟨w, hw, hc⟩
  · rw [List.mem_singleton.1 hc]
    decide
  · obtain ⟨f, hf, rfl⟩ := List.mem_map.1 hw
    exact (mem_fieldChars (h.key_of_mem hf) hc).2

end Writing

section Lines

variable {records : List Record}

/-- Parts without bars that are not blank are the records of the line that they are joined to. -/
theorem listOfChars_join {line : List Char} {parts : List (List Char)} (hne : parts ≠ [])
    (hparts : ∀ w ∈ parts, (Text.trim w).isEmpty = false ∧ ∀ c ∈ w, c ≠ '|')
    (htrim : Text.trimEnd line = Text.join ['|'] parts) : listOfChars line = parts.map ofChars := by
  have hpieces : Text.pieces (· == '|') (Text.join ['|'] parts) = parts :=
    pieces_join (by rfl) hne fun w hw c hc => beq_eq_false_iff_ne.2 ((hparts w hw).2 c hc)
  have hkept : parts.filter (fun part => !(Text.trim part).isEmpty) = parts := by
    refine List.filter_eq_self.2 fun w hw => ?_
    rw [(hparts w hw).1]
    rfl
  rw [listOfChars, htrim, hpieces, hkept]

theorem map_ofChars (hw : ∀ r ∈ records, r.Writable) : (records.map toChars).map ofChars = records := by
  rw [List.map_map]
  refine (List.map_congr_left fun r hr => ?_).trans (List.map_id _)
  exact ofChars_toChars (hw r hr)

/-- **What trims to a written line holds the records that were written.** -/
theorem listOfChars_of_trimEnd {line : List Char} (hne : records ≠ [])
    (hw : ∀ r ∈ records, r.Writable) (htrim : Text.trimEnd line = lineChars records) :
    listOfChars line = records := by
  rw [listOfChars_join (by simpa using hne) ?_ htrim, map_ofChars hw]
  intro w hwm
  obtain ⟨r, hr, rfl⟩ := List.mem_map.1 hwm
  exact ⟨trim_toChars (hw r hr), fun c hc => (mem_toChars (hw r hr) hc).1⟩

/-- What stands on a line in front of its last value. -/
theorem lineChars_concat (earlier : List Record) (front : List (String × String))
    (key value : String) :
    lineChars (earlier ++ [⟨front ++ [(key, value)]⟩]) =
      ((earlier.map toChars).flatMap (· ++ ['|']) ++ (front.map fieldChars).flatMap (· ++ [' ']) ++
        key.toList ++ ['=']) ++ Escape.encodeChars value.toList := by
  rw [lineChars, List.map_append, List.map_singleton, join_concat]
  simp only [toChars, List.map_append, List.map_singleton, join_concat, fieldChars,
    List.append_assoc, List.singleton_append]

/-- **Trimming a written line** shears its last value and does nothing else. -/
theorem trimEnd_lineChars (earlier : List Record) (front : List (String × String))
    (key value : String) :
    Text.trimEnd (lineChars (earlier ++ [⟨front ++ [(key, value)]⟩])) =
      lineChars (earlier ++ [⟨front ++ [(key, Escape.shear value)]⟩]) := by
  rw [lineChars_concat, lineChars_concat, Escape.shear, String.toList_ofList]
  exact trimEnd_encodeChars (trimEnd_concat (by decide)) value.toList

/-- A record stays writable when a value changes. -/
theorem Writable.revalue {front : List (String × String)} {key value : String}
    (h : Writable ⟨front ++ [(key, value)]⟩) (value' : String) :
    Writable ⟨front ++ [(key, value')]⟩ where
  nonempty := by simp
  distinct := by simpa [Record.keys] using h.distinct
  keys := by simpa [Record.keys] using h.keys

/-- A line of records has a last value. -/
theorem exists_last_value (hne : records ≠ []) (hw : ∀ r ∈ records, r.Writable) :
    ∃ earlier front key value, records = earlier ++ [⟨front ++ [(key, value)]⟩] := by
  obtain ⟨earlier, ⟨fields⟩, rfl⟩ := (List.eq_nil_or_concat records).resolve_left hne
  have hfields : fields ≠ [] := (hw ⟨fields⟩ (by simp)).nonempty
  obtain ⟨front, ⟨key, value⟩, rfl⟩ := (List.eq_nil_or_concat fields).resolve_left hfields
  exact ⟨earlier, front, key, value, by simp⟩

end Lines

section Law

/-- **Records are read back as they were written**, whatever their values hold, but for a run of bare
blanks at the end of the last value, and exactly this run. Keys and records are never added, dropped or
altered. -/
theorem records_read_back {records : List Record} (hne : records ≠ [])
    (hw : ∀ r ∈ records, r.Writable) :
    (∃ (earlier : List Record) (front : List (String × String)) (key kept run : String),
      records = earlier ++ [⟨front ++ [(key, kept ++ run)]⟩] ∧
      parseLine (writeLine records) = earlier ++ [⟨front ++ [(key, kept)]⟩] ∧
      (∀ c ∈ run.toList, Escape.isBare c = true) ∧
      ∀ c ∈ kept.toList.getLast?, Escape.isBare c = false) ∧
    (parseLine (writeLine records)).map keys = records.map keys := by
  obtain ⟨earlier, front, key, value, rfl⟩ := exists_last_value hne hw
  obtain ⟨run, hvalue, hrun, hkept⟩ := shear_append value
  have hw' : ∀ r ∈ earlier ++ [⟨front ++ [(key, Escape.shear value)]⟩], r.Writable := by
    intro r hr
    rcases List.mem_append.1 hr with hr | hr
    · exact hw r (List.mem_append_left _ hr)
    · rw [List.mem_singleton.1 hr]
      exact (hw ⟨front ++ [(key, value)]⟩ (by simp)).revalue _
  have hparse : parseLine (writeLine (earlier ++ [⟨front ++ [(key, value)]⟩])) =
      earlier ++ [⟨front ++ [(key, Escape.shear value)]⟩] := by
    rw [parseLine, writeLine, String.toList_ofList]
    exact listOfChars_of_trimEnd (by simp) hw' (trimEnd_lineChars earlier front key value)
  constructor
  · exact ⟨earlier, front, key, Escape.shear value, run, by rw [← hvalue], hparse, hrun, hkept⟩
  · rw [hparse]
    simp [keys]

/-- Values with separators, escapes and blanks in them; only the last one ends in bare blanks that are
lost, a no-break space and an ideographic space, and keeps the space in front of them. -/
theorem records_read_back_odd_values :
    let records : List Record :=
      [⟨[("clid", "1|2 cid=3"), ("name", "\\s\u00A0")]⟩, ⟨[("cid", ""), ("topic", "a= \u00A0\u3000")]⟩]
    records ≠ [] ∧ (∀ r ∈ records, r.Writable) ∧
      (parseLine (writeLine records)).map keys = [["clid", "name"], ["cid", "topic"]] ∧
      parseLine (writeLine records) =
        [⟨[("clid", "1|2 cid=3"), ("name", "\\s\u00A0")]⟩, ⟨[("cid", ""), ("topic", "a= ")]⟩] := by
  intro records
  have hne : records ≠ [] := List.cons_ne_nil _ _
  have hw : ∀ r ∈ records, r.Writable := by decide +kernel
  exact ⟨hne, hw, (records_read_back hne hw).2, by decide +kernel⟩

end Law

end Record

end VoiceRelay
