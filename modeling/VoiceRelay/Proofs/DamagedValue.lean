import VoiceRelay.Proofs.Searching

/-!
# A damaged value damages no other

The octets of one value on a line of records may be replaced by anything that ends no field, no record and
no line, well-formed or not. The line is decoded as a whole before it is cut into records and fields, but
an unfinished sequence never swallows the separator behind it, and neither trimming nor unescaping reaches
across one. So the records and their keys stay what they were, and so does every other value.

**Design.** `Place` is a value's place on a line: what was written before it and behind it. `Place.octets`
is the line with any octets at the place, `Place.chars` the line with any characters there. What the line
is read as is followed from the octets to the characters, over trimming, to the records.

**Results.**

- `decode_octets`: the characters of a line with any octets at a place.
- `listOfChars_at`: what is read from a line with any characters at a place.
- `trimEnd_last`, `trimEnd_later`: trimming changes the value at the place, or one behind it.
- `damage_stays_local`: the law.
-/

namespace VoiceRelay
namespace Record

section Defs

/-- A place for a value on a line of records. -/
structure Place where
  earlier : List Record
  front : List (String × String)
  key : String
  back : List (String × String)
  later : List Record

namespace Place

/-- The records with a value at a place. -/
def records (p : Place) (value : String) : List Record :=
  p.earlier ++ ⟨p.front ++ (p.key, value) :: p.back⟩ :: p.later

/-- What stands on the line in front of a place. -/
def before (p : Place) : List Char :=
  (p.earlier.map toChars).flatMap (· ++ ['|']) ++ (p.front.map fieldChars).flatMap (· ++ [' ']) ++
    p.key.toList ++ ['=']

/-- What stands on the line behind a place. -/
def behind (p : Place) : List Char :=
  (p.back.map fieldChars).flatMap (' ' :: ·) ++ (p.later.map toChars).flatMap ('|' :: ·)

/-- The line with some characters at a place. -/
def chars (p : Place) (written : List Char) : List Char := p.before ++ written ++ p.behind

/-- The octets of the line with some octets at a place. -/
def octets (p : Place) (written : List UInt8) : List UInt8 :=
  Utf8.encode p.before ++ written ++ Utf8.encode p.behind

end Place

/-- Octets that end no field, no record and no line. -/
def Enclosed (octets : List UInt8) : Prop :=
  0x20 ∉ octets ∧ 0x7C ∉ octets ∧ ¬ Line.delimiter <:+: octets

instance : DecidablePred Enclosed := fun octets =>
  inferInstanceAs (Decidable (0x20 ∉ octets ∧ 0x7C ∉ octets ∧ ¬ Line.delimiter <:+: octets))

end Defs

section Places

variable {p : Place} {value : String} {written : List Char}

/-- A join, seen from one of its texts. -/
theorem join_around {α : Type} (sep : List α) (ws : List (List α)) (w : List α) (vs : List (List α)) :
    Text.join sep (ws ++ w :: vs) = ws.flatMap (· ++ sep) ++ w ++ vs.flatMap (sep ++ ·) := by
  induction vs generalizing ws w with
  | nil => rw [join_concat, List.flatMap_nil, List.append_nil]
  | cons v vs ih =>
    rw [← List.singleton_append, ← List.append_assoc, ih, List.flatMap_append, List.flatMap_singleton,
      List.flatMap_cons]
    simp only [List.append_assoc]

/-- The record at a place, with some characters for its value. -/
def Place.fields (p : Place) (written : List Char) : List (List Char) :=
  p.front.map fieldChars ++ (p.key.toList ++ '=' :: written) :: p.back.map fieldChars

theorem chars_eq (p : Place) (written : List Char) :
    p.chars written = Text.join ['|'] (p.earlier.map toChars ++
      Text.join [' '] (p.fields written) :: p.later.map toChars) := by
  rw [Place.fields, join_around, join_around, Place.chars, Place.before, Place.behind]
  simp only [List.append_assoc, List.cons_append, List.nil_append]

theorem lineChars_records (p : Place) (value : String) :
    lineChars (p.records value) = p.chars (Escape.encodeChars value.toList) := by
  rw [chars_eq, lineChars, Place.records, List.map_append, List.map_cons, toChars, Place.fields,
    List.map_append, List.map_cons]
  rfl

/-- The keys on a line do not depend on the value at a place. -/
theorem keys_records (p : Place) (value value' : String) :
    (p.records value).map keys = (p.records value').map keys := by
  simp [Place.records, keys]

/-- Whether records can be written is a matter of their keys. -/
theorem writable_of_keys {rs rs' : List Record} (h : ∀ r ∈ rs, r.Writable)
    (hkeys : rs'.map keys = rs.map keys) : ∀ r ∈ rs', r.Writable := by
  intro r' hr'
  have hmem : r'.keys ∈ rs.map keys := hkeys ▸ List.mem_map_of_mem hr'
  obtain ⟨r, hr, heq⟩ := List.mem_map.1 hmem
  have hr := h r hr
  refine ⟨fun hnil => hr.nonempty ?_, heq ▸ hr.distinct, heq ▸ hr.keys⟩
  rw [Record.keys, Record.keys, hnil] at heq
  exact List.map_eq_nil_iff.1 heq

end Places

section Reading

variable {p : Place} {value : String} {written : List Char}

theorem fieldOfToken_at {key : String} (hkey : Key key) (written : List Char) :
    fieldOfToken (key.toList ++ '=' :: written) = (key, .ofList (Escape.decodeChars written)) := by
  have hfront : ∀ c ∈ key.toList, (c == '=') = false := fun c hc =>
    beq_eq_false_iff_ne.2 (hkey.plain hc).2.1
  have hsplit : Text.splitOnce (· == '=') (key.toList ++ '=' :: written) =
      some (key.toList, written) := splitOnce_append _ hfront rfl
  simp only [fieldOfToken, hsplit, String.ofList_toList]

/-- The characters of a field at a place, if those at the place end neither a field nor a record. -/
theorem mem_fields (hw : Writable ⟨p.front ++ (p.key, value) :: p.back⟩)
    (hclean : ∀ c ∈ written, c ≠ ' ' ∧ c ≠ '|') {w : List Char} (h : w ∈ p.fields written) :
    ∀ c ∈ w, c ≠ ' ' ∧ c ≠ '|' := by
  intro c hc
  have hside : ∀ f ∈ p.front ++ (p.key, value) :: p.back, c ∈ fieldChars f → c ≠ ' ' ∧ c ≠ '|' :=
    fun f hf hc => ⟨(mem_fieldChars (hw.key_of_mem hf) hc).1, (mem_fieldChars (hw.key_of_mem hf) hc).2.1⟩
  rw [Place.fields, List.mem_append, List.mem_cons] at h
  rcases h with h | rfl | h
  · obtain ⟨f, hf, rfl⟩ := List.mem_map.1 h
    exact hside f (List.mem_append_left _ hf) hc
  · have hkey : Key p.key := hw.key_of_mem (f := (p.key, value)) (by simp)
    rcases List.mem_append.1 hc with hc | hc
    · exact ⟨(hkey.plain hc).1, (hkey.plain hc).2.2.1⟩
    · rcases List.mem_cons.1 hc with rfl | hc
      · decide
      · exact hclean c hc
  · obtain ⟨f, hf, rfl⟩ := List.mem_map.1 h
    exact hside f (List.mem_append_right _ (List.mem_cons_of_mem _ hf)) hc

/-- **What is read from a record with some characters at a place.** -/
theorem ofChars_at (hw : Writable ⟨p.front ++ (p.key, value) :: p.back⟩)
    (hclean : ∀ c ∈ written, c ≠ ' ' ∧ c ≠ '|') :
    ofChars (Text.join [' '] (p.fields written)) =
      ⟨p.front ++ (p.key, .ofList (Escape.decodeChars written)) :: p.back⟩ := by
  have hback : (p.fields written).map fieldOfToken =
      p.front ++ (p.key, .ofList (Escape.decodeChars written)) :: p.back := by
    rw [Place.fields, List.map_append, List.map_cons,
      map_fieldOfToken fun f hf => hw.key_of_mem (List.mem_append_left _ hf),
      map_fieldOfToken fun f hf => hw.key_of_mem (List.mem_append_right _ (List.mem_cons_of_mem _ hf)),
      fieldOfToken_at (hw.key_of_mem (f := (p.key, value)) (by simp))]
  have hdistinct := hw.distinct
  rw [ofChars_join (by simp [Place.fields]), hback, ofFields_eq (by simpa [keys] using hdistinct)]
  intro w hwm
  refine ⟨?_, fun c hc => (mem_fields hw hclean hwm c hc).1⟩
  rw [Place.fields, List.mem_append, List.mem_cons, List.mem_map, List.mem_map] at hwm
  rcases hwm with ⟨f, -, rfl⟩ | rfl | ⟨f, -, rfl⟩ <;> simp [fieldChars]

/-- **What is read from a line with some characters at a place**: there their meaning, elsewhere what was
written. -/
theorem listOfChars_at (hw : ∀ r ∈ p.records value, r.Writable)
    (hclean : ∀ c ∈ written, c ≠ ' ' ∧ c ≠ '|') {line : List Char}
    (htrim : Text.trimEnd line = p.chars written) :
    listOfChars line = p.records (.ofList (Escape.decodeChars written)) := by
  have hmid : Writable ⟨p.front ++ (p.key, value) :: p.back⟩ := hw _ (by simp [Place.records])
  have hearlier : ∀ r ∈ p.earlier, r.Writable := fun r hr => hw r (by simp [Place.records, hr])
  have hlater : ∀ r ∈ p.later, r.Writable := fun r hr => hw r (by simp [Place.records, hr])
  rw [chars_eq] at htrim
  rw [listOfChars_join (by simp) ?_ htrim, List.map_append, List.map_cons, map_ofChars hearlier,
    map_ofChars hlater, ofChars_at hmid hclean, Place.records]
  intro w hwm
  rw [List.mem_append, List.mem_cons, List.mem_map, List.mem_map] at hwm
  rcases hwm with ⟨r, hr, rfl⟩ | rfl | ⟨r, hr, rfl⟩
  · exact ⟨trim_toChars (hearlier r hr), fun c hc => (mem_toChars (hearlier r hr) hc).1⟩
  · have hequals : '=' ∈ Text.join [' '] (p.fields written) := by
      rw [Place.fields, join_around]
      simp
    refine ⟨trim_of_mem hequals (by decide), fun c hc => ?_⟩
    rcases mem_join hc with hc | ⟨w, hwm, hc⟩
    · rw [List.mem_singleton.1 hc]
      decide
    · exact (mem_fields hmid hclean hwm c hc).2
  · exact ⟨trim_toChars (hlater r hr), fun c hc => (mem_toChars (hlater r hr) hc).1⟩

end Reading

section Trimming

variable {p : Place} {value : String}

/-- Trimming stops at a text that does not end in a blank. -/
theorem trimEnd_append {front : List Char} (hfront : Text.trimEnd front = front) (cs : List Char) :
    Text.trimEnd (front ++ cs) = front ++ Text.trimEnd cs := by
  induction cs using List.reverseRecOn with
  | nil =>
    rw [List.append_nil]
    exact hfront.trans (List.append_nil front).symm
  | append_singleton cs c ih =>
    rw [← List.append_assoc]
    by_cases hc : Text.isBlank c = true
    · rw [trimEnd_concat_of_blank hc, trimEnd_concat_of_blank hc, ih]
    · have hc : Text.isBlank c = false := by simpa using hc
      rw [trimEnd_concat hc, trimEnd_concat hc, List.append_assoc]

/-- Trimming a line that ends in a written field shears the value of this field. -/
theorem trimEnd_fieldChars (front : List Char) (key value : String) :
    Text.trimEnd (front ++ fieldChars (key, value)) =
      front ++ fieldChars (key, Escape.shear value) := by
  have hassoc : ∀ cs : List Char, front ++ (key.toList ++ '=' :: cs) = front ++ key.toList ++ ['='] ++ cs :=
    fun cs => by simp
  rw [fieldChars, fieldChars, hassoc, hassoc, trimEnd_encodeChars (trimEnd_concat (by decide)),
    Escape.shear, String.toList_ofList]

/-- **Trimming changes the value at the place** if it is the last one of the line. -/
theorem trimEnd_last (hback : p.back = []) (hlater : p.later = []) (written : List Char) :
    Text.trimEnd (p.chars written) = p.chars (Text.trimEnd written) := by
  have hbehind : p.behind = [] := by simp [Place.behind, hback, hlater]
  rw [Place.chars, Place.chars, hbehind, List.append_nil, List.append_nil]
  exact trimEnd_append (trimEnd_concat (by decide)) written

/-- **Trimming changes a value behind the place** if there is one, and no key. -/
theorem trimEnd_later (hw : ∀ r ∈ p.records value, r.Writable) (hmore : p.back ≠ [] ∨ p.later ≠ []) :
    ∃ q : Place, q.earlier = p.earlier ∧ q.front = p.front ∧ q.key = p.key ∧
      (∀ value, (q.records value).map keys = (p.records value).map keys) ∧
      ∀ written, Text.trimEnd (p.chars written) = q.chars written := by
  obtain ⟨earlier, front, key, back, later⟩ := p
  rcases List.eq_nil_or_concat later with rfl | ⟨later, ⟨fields⟩, rfl⟩
  · -- The last field of the line is one behind the place in the same record.
    obtain ⟨back, ⟨k, v⟩, rfl⟩ := (List.eq_nil_or_concat back).resolve_left (by simpa using hmore)
    refine ⟨⟨earlier, front, key, back ++ [(k, Escape.shear v)], []⟩, rfl, rfl, rfl, fun value => ?_,
      fun written => ?_⟩
    · simp [Place.records, keys]
    · have hline : ∀ v, Place.chars ⟨earlier, front, key, back ++ [(k, v)], []⟩ written =
          (Place.chars ⟨earlier, front, key, back, []⟩ written ++ [' ']) ++ fieldChars (k, v) := by
        intro v
        simp [Place.chars, Place.before, Place.behind]
      rw [List.concat_eq_append, hline, hline, trimEnd_fieldChars]
  · -- The last field of the line is that of the last record.
    have hfields : fields ≠ [] := (hw ⟨fields⟩ (by simp [Place.records])).nonempty
    obtain ⟨front', ⟨k, v⟩, rfl⟩ := (List.eq_nil_or_concat fields).resolve_left hfields
    refine ⟨⟨earlier, front, key, back, later ++ [⟨front' ++ [(k, Escape.shear v)]⟩]⟩, rfl, rfl, rfl,
      fun value => ?_, fun written => ?_⟩
    · simp [Place.records, keys]
    · have hline : ∀ v, Place.chars ⟨earlier, front, key, back, later ++ [⟨front' ++ [(k, v)]⟩]⟩ written =
          (Place.chars ⟨earlier, front, key, back, later⟩ written ++ ['|'] ++
            (front'.map fieldChars).flatMap (· ++ [' '])) ++ fieldChars (k, v) := by
        intro v
        simp [Place.chars, Place.before, Place.behind, toChars, join_concat]
      rw [List.concat_eq_append, List.concat_eq_append, hline, hline, trimEnd_fieldChars]

/-- **What is read from a line with some characters at a place**, trimming included: something at the place,
and elsewhere what is read whatever stands at the place. -/
theorem listOfChars_chars (hw : ∀ r ∈ p.records value, r.Writable) :
    ∃ q : Place, q.earlier = p.earlier ∧ q.front = p.front ∧ q.key = p.key ∧
      (∀ value, (q.records value).map keys = (p.records value).map keys) ∧
      ∀ written, (∀ c ∈ written, c ≠ ' ' ∧ c ≠ '|') →
        ∃ read, listOfChars (p.chars written) = q.records read := by
  by_cases hlast : p.back = [] ∧ p.later = []
  · refine ⟨p, rfl, rfl, rfl, fun _ => rfl, fun written hclean => ?_⟩
    exact ⟨_, listOfChars_at hw (fun c hc => hclean c ((List.rdropWhile_prefix _ _).subset hc))
      (trimEnd_last hlast.1 hlast.2 written)⟩
  · obtain ⟨q, hearlier, hfront, hkey, hkeys, htrim⟩ := trimEnd_later hw (by
      rwa [← not_and_or])
    refine ⟨q, hearlier, hfront, hkey, hkeys, fun written hclean => ?_⟩
    exact ⟨_, listOfChars_at (writable_of_keys hw (hkeys value)) hclean (htrim written)⟩

end Trimming

section Octets

variable {p : Place} {value : String} {damage : List UInt8}

theorem encode_append (cs ds : List Char) : Utf8.encode (cs ++ ds) = Utf8.encode cs ++ Utf8.encode ds :=
  List.flatMap_append

/-- Behind a place stands nothing, or a separator comes first. -/
theorem behind_cases (p : Place) :
    p.behind = [] ∨ ∃ c rest, (c = ' ' ∨ c = '|') ∧ p.behind = c :: rest := by
  obtain ⟨earlier, front, key, back, later⟩ := p
  cases back with
  | nil =>
    cases later with
    | nil => exact Or.inl rfl
    | cons r later => exact Or.inr ⟨'|', _, Or.inr rfl, rfl⟩
  | cons f back => exact Or.inr ⟨' ', _, Or.inl rfl, rfl⟩

/-- A separator is encoded as one octet below 80₁₆. -/
theorem encode_separator {c : Char} (hc : c = ' ' ∨ c = '|') (rest : List Char) :
    ∃ b : UInt8, b.toNat < 0x80 ∧ Char.ofNat b.toNat = c ∧ b ∉ Line.delimiter ∧
      Utf8.encode (c :: rest) = b :: Utf8.encode rest := by
  rcases hc with rfl | rfl
  · exact ⟨0x20, by decide, by decide, by decide, rfl⟩
  · exact ⟨0x7C, by decide, by decide, by decide, rfl⟩

/-- **The characters of a line with any octets at a place**: an unfinished sequence there takes nothing of
what follows. -/
theorem decode_octets (p : Place) (written : List UInt8) :
    Utf8.decode (p.octets written) = p.chars (Utf8.decode written) := by
  rw [Place.octets, List.append_assoc, Utf8.decode_encode_append, Place.chars, List.append_assoc]
  rcases behind_cases p with hnil | ⟨c, rest, hc, hcons⟩
  · rw [hnil]
    simp [Utf8.encode]
  · obtain ⟨b, hb, hchar, -, hencode⟩ := encode_separator hc rest
    rw [hcons, hencode, Utf8.decode_append_ascii written hb, hchar, Utf8.decode_encode]

/-- What is read of enclosed octets ends neither a field nor a record. -/
theorem mem_decode_enclosed (hd : Enclosed damage) :
    ∀ c ∈ Utf8.decode damage, c ≠ ' ' ∧ c ≠ '|' := by
  intro c hc
  constructor
  · rintro rfl
    exact hd.1 (Utf8.mem_decode hc (by decide) (by decide))
  · rintro rfl
    exact hd.2.1 (Utf8.mem_decode hc (by decide) (by decide))

/-- **A line with enclosed octets at a place is one line.** -/
theorem cut_octets (hw : ∀ r ∈ p.records value, r.Writable) (hd : Enclosed damage) :
    ¬ Line.delimiter <:+: p.octets damage := by
  have hline : ∀ cs : List Char, cs ⊆ lineChars (p.records value) →
      ¬ Line.delimiter <:+: Utf8.encode cs := fun cs hcs =>
    Line.cut_eq_none_iff.1 (cut_encode fun c hc => mem_lineChars hw (hcs hc))
  rw [lineChars_records, Place.chars] at hline
  obtain ⟨lead, hlead⟩ : ∃ lead, p.before = lead ++ ['='] := ⟨_, rfl⟩
  have hoctets : p.octets damage =
      Utf8.encode lead ++ 0x3D :: (damage ++ Utf8.encode p.behind) := by
    rw [Place.octets, hlead, encode_append, List.append_assoc, List.append_assoc]
    rfl
  have hfront : ¬ Line.delimiter <:+: Utf8.encode lead := hline lead fun c hc => by simp [hlead, hc]
  rw [hoctets, Text.infix_beside_iff (by decide), not_or]
  refine ⟨hfront, ?_⟩
  rcases behind_cases p with hnil | ⟨c, rest, hc, hcons⟩
  · rw [hnil]
    simpa [Utf8.encode] using hd.2.2
  · obtain ⟨b, -, -, hb, hencode⟩ := encode_separator hc rest
    have hrest : ¬ Line.delimiter <:+: Utf8.encode rest := hline rest fun d hd => by simp [hcons, hd]
    rw [hcons, hencode, Text.infix_beside_iff hb, not_or]
    exact ⟨hd.2.2, hrest⟩

/-- A line is decoded up to its delimiter, or to the end of the stream. -/
theorem decode_line {line : List UInt8} (hne : line ≠ []) (hcut : ¬ Line.delimiter <:+: line)
    (limit : Nat) (more : List UInt8) :
    (∀ ended, Line.decode limit ended (line ++ Line.delimiter ++ more) =
        .line (Line.textOf line) more) ∧
      Line.decode limit true line = .line (Line.textOf line) [] := by
  refine ⟨fun ended => Line.decode_of_cut limit ended (Line.cut_delimiter more hcut), ?_⟩
  rw [Line.decode, Line.take_of_cut_none hne (Line.cut_eq_none_iff.2 hcut)]
  rfl

end Octets

section Law

/-- **Damage stays local.** On a line of records the octets of one value are replaced by others that hold
no space, no bar and no end of a line. Then the line is decoded as one line before as after. The records
have the keys that were written, and every other value is read as on the line without the damage. -/
theorem damage_stays_local (p : Place) {value : String} {damage : List UInt8}
    (hw : ∀ r ∈ p.records value, r.Writable) (hd : Enclosed damage) :
    let written := Utf8.encode (lineChars (p.records value))
    let damaged := p.octets damage
    written = p.octets (Utf8.encode (Escape.encodeChars value.toList)) ∧
      (∀ line ∈ [written, damaged], ∀ limit more,
        (∀ ended, Line.decode limit ended (line ++ Line.delimiter ++ more) =
          .line (Line.textOf line) more) ∧
        Line.decode limit true line = .line (Line.textOf line) []) ∧
      ∃ (q : Place) (kept changed : String), q.earlier = p.earlier ∧ q.front = p.front ∧
        q.key = p.key ∧ (q.records kept).map keys = (p.records value).map keys ∧
        (q.records changed).map keys = (p.records value).map keys ∧
        parseLine (Line.textOf written) = q.records kept ∧
        parseLine (Line.textOf damaged) = q.records changed := by
  intro written damaged
  have hwritten : written = p.octets (Utf8.encode (Escape.encodeChars value.toList)) := by
    simp only [written, lineChars_records, Place.chars, Place.octets, encode_append]
  have hread : ∀ octets, parseLine (Line.textOf (p.octets octets)) =
      listOfChars (p.chars (Utf8.decode octets)) := fun octets => by
    rw [parseLine, Line.textOf, String.toList_ofList, decode_octets]
  have hnil : ∀ octets, p.octets octets ≠ [] := fun octets h => by
    simp [Place.octets, Place.before, Utf8.encode] at h
  have hcut : ¬ Line.delimiter <:+: written :=
    Line.cut_eq_none_iff.1 (cut_encode fun c hc => mem_lineChars hw hc)
  refine ⟨hwritten, fun line hline limit more => ?_, ?_⟩
  · rcases List.mem_pair.1 hline with rfl | rfl
    · exact decode_line (hwritten ▸ hnil _) hcut limit more
    · exact decode_line (hnil _) (cut_octets hw hd) limit more
  · obtain ⟨q, hearlier, hfront, hkey, hkeys, hchars⟩ := listOfChars_chars hw
    obtain ⟨kept, hkept⟩ := hchars (Escape.encodeChars value.toList) fun c hc =>
      ⟨(mem_encodeChars hc).1, (mem_encodeChars hc).2.1⟩
    obtain ⟨changed, hchanged⟩ := hchars (Utf8.decode damage) (mem_decode_enclosed hd)
    refine ⟨q, kept, changed, hearlier, hfront, hkey, ?_, ?_, ?_, ?_⟩
    · exact (hkeys kept).trans (keys_records p kept value)
    · exact (hkeys changed).trans (keys_records p changed value)
    · rw [hwritten, hread, Utf8.decode_encode, hkept]
    · rw [hread, hchanged]

/-- A backslash and two octets of a three-octet sequence are left of a value. The last value of the line
loses the blank at its end on either line, and no field is lost. -/
theorem damage_stays_local_cut_sequence :
    let p : Place := ⟨[⟨[("clid", "1")]⟩], [("cid", "2")], "name", [("topic", "a|b")],
      [⟨[("flag", ""), ("text", "y\u3000")]⟩]⟩
    let damage : List UInt8 := [0x5C, 0xE2, 0x82]
    let records := fun name => [⟨[("clid", "1")]⟩, ⟨[("cid", "2"), ("name", name), ("topic", "a|b")]⟩,
      ⟨[("flag", ""), ("text", "y")]⟩]
    (∀ r ∈ p.records "Gäste €", r.Writable) ∧ Enclosed damage ∧
      (∀ limit, Line.decode limit true (p.octets damage) = .line (Line.textOf (p.octets damage)) []) ∧
      parseLine (Line.textOf (p.octets (Utf8.encode "Gäste\\s€".toList))) = records "Gäste €" ∧
      parseLine (Line.textOf (p.octets damage)) = records "\\\uFFFD" := by
  intro p damage records
  have hw : ∀ r ∈ p.records "Gäste €", r.Writable := by decide +kernel
  have hd : Enclosed damage := by decide +kernel
  obtain ⟨-, hlines, -⟩ := damage_stays_local p hw hd
  exact ⟨hw, hd, fun limit => (hlines _ (by simp [damage]) limit []).2, by decide +kernel,
    by decide +kernel⟩

end Law

end Record
end VoiceRelay
