import VoiceRelay.Query.Link
import VoiceRelay.Proofs.EscapedForm
import VoiceRelay.Proofs.LineCuts
import VoiceRelay.Proofs.RecordLines
import VoiceRelay.Proofs.Utf8Text

/-!
# The lines of a reply

A reply is any number of lines and a status line after them. The lines before it hold records, or are
notices of something else that happened, or are blank. No such line is taken for a status line, and
only the first kind adds records to what the command returns.

**Design.** `Passage` is a line inside a reply and `Response` a whole reply; `WellFormed` says what the
voice server may write. Data lines and the status line are given by what they say, the other lines by
their octets, which may be any as long as the line is one of its kind.

**Results.**

- `ofChars_written`: the status that was written is read from its line.
- `parse?_passage`: no other line of a reply is a status line.
- `recordsIn_passage`: what the other lines add to the records.
- `cut_passage`, `cut_status`: every line of a reply is one line.
-/

namespace VoiceRelay

section Defs

/-- A value that does not end in a blank which its written form keeps as it is. -/
def Escape.Unshorn (value : String) : Prop := ∀ c ∈ value.toList.getLast?, isBare c = false

instance : DecidablePred Escape.Unshorn := fun value =>
  Option.decidableForallMem value.toList.getLast?

/-- Records that can be written on a line of a reply: reading gives all of them back, and the line is
not taken for a notice. -/
structure Record.Presentable (records : List Record) : Prop where
  nonempty : records ≠ []
  writable : ∀ r ∈ records, r.Writable
  unshorn : ∀ r ∈ records.getLast?, ∀ f ∈ r.fields.getLast?, Escape.Unshorn f.2
  heading : ∀ r ∈ records.head?, ∀ f ∈ r.fields.head?, ¬ Link.noticeLead <+: f.1.toList

instance : DecidablePred Record.Presentable := fun records =>
  decidable_of_iff (records ≠ [] ∧ (∀ r ∈ records, r.Writable) ∧
      (∀ r ∈ records.getLast?, ∀ f ∈ r.fields.getLast?, Escape.Unshorn f.2) ∧
      ∀ r ∈ records.head?, ∀ f ∈ r.fields.head?, ¬ Link.noticeLead <+: f.1.toList)
    ⟨fun h => ⟨h.1, h.2.1, h.2.2.1, h.2.2.2⟩, fun h => ⟨h.1, h.2, h.3, h.4⟩⟩

/-- A status line as it is written. -/
def Status.written (s : Status) : List Char :=
  "error id=".toList ++ Decimal.digits s.id ++ " msg=".toList ++ Escape.encodeChars s.message.toList

/-- A line of a reply before its status line. -/
inductive Passage
  | data (records : List Record)
  | notice (octets : List UInt8)
  | blank (octets : List UInt8)

namespace Passage

/-- The octets of a line in front of its delimiter. -/
def octets : Passage → List UInt8
  | .data records => Utf8.encode (Record.lineChars records)
  | .notice octets => octets
  | .blank octets => octets

/-- The records that a line holds. -/
def records : Passage → List Record
  | .data records => records
  | .notice _ => []
  | .blank _ => []

/-- A line that is what it is said to be, and one line only. -/
def WellFormed : Passage → Prop
  | .data records => Record.Presentable records
  | .notice octets => Line.cut octets = none ∧ Link.noticeLead <+: Utf8.decode octets
  | .blank octets => Line.cut octets = none ∧ ∀ c ∈ Utf8.decode octets, Text.isBlank c = true

instance : DecidablePred WellFormed
  | .data records => inferInstanceAs (Decidable (Record.Presentable records))
  | .notice _ => inferInstanceAs (Decidable (_ ∧ _))
  | .blank octets => @instDecidableAnd _ _ inferInstance (List.decidableBAll _ (Utf8.decode octets))

end Passage

/-- A whole reply: some lines, and what its status line says. -/
structure Response where
  passages : List Passage
  status : Status

namespace Response

/-- The lines of a reply. -/
def lines (a : Response) : List (List UInt8) :=
  a.passages.map Passage.octets ++ [Utf8.encode a.status.written]

/-- The octets of a reply. -/
def octets (a : Response) : List UInt8 := Line.ending a.lines

/-- The records of a reply. -/
def records (a : Response) : List Record := a.passages.flatMap Passage.records

/-- What a command returns for a reply. -/
def outcome (a : Response) : Except Fault (List Record) :=
  if a.status.id = 0 then .ok a.records else .error (.refusal a.status.id a.status.message)

/-- A reply that a reader with some limit on the length of lines can read. -/
structure WellFormed (a : Response) (limit : Nat) : Prop where
  passages : ∀ p ∈ a.passages, p.WellFormed
  id : a.status.id < Decimal.bound32
  message : Escape.Unshorn a.status.message
  short : ∀ line ∈ a.lines, line.length < limit

instance (a : Response) (limit : Nat) : Decidable (a.WellFormed limit) :=
  decidable_of_iff ((∀ p ∈ a.passages, p.WellFormed) ∧ a.status.id < Decimal.bound32 ∧
      Escape.Unshorn a.status.message ∧ ∀ line ∈ a.lines, line.length < limit)
    ⟨fun h => ⟨h.1, h.2.1, h.2.2.1, h.2.2.2⟩, fun h => ⟨h.1, h.2, h.3, h.4⟩⟩

end Response

end Defs

section Leads

variable {α : Type} [DecidableEq α]

theorem dropLead?_append (lead l : List α) : Text.dropLead? lead (lead ++ l) = some l := by
  induction lead with
  | nil => cases l <;> rfl
  | cons a lead ih => rw [List.cons_append, Text.dropLead?, if_pos rfl, ih]

theorem dropLead?_isSome {lead l : List α} : (Text.dropLead? lead l).isSome ↔ lead <+: l := by
  constructor
  · intro h
    induction lead generalizing l with
    | nil => exact List.nil_prefix
    | cons a lead ih =>
      cases l with
      | nil => cases h
      | cons b l =>
        rw [Text.dropLead?] at h
        by_cases hab : a = b
        · rw [if_pos hab] at h
          rw [hab]
          exact (List.prefix_cons_inj b).2 (ih h)
        · rw [if_neg hab] at h
          cases h
  · rintro ⟨rest, rfl⟩
    rw [dropLead?_append]
    rfl

theorem dropLead?_none {lead l : List α} (h : ¬ lead <+: l) : Text.dropLead? lead l = none := by
  rw [← Option.not_isSome_iff_eq_none, dropLead?_isSome]
  exact h

omit [DecidableEq α] in
/-- A beginning that ends before some element is a beginning of what stands in front of it. -/
theorem prefix_of_prefix_cons {lead front rest : List α} {a : α} (h : lead <+: front ++ a :: rest)
    (ha : a ∉ lead) : lead <+: front := by
  rcases List.prefix_or_prefix_of_prefix h (List.prefix_append front (a :: rest)) with h' | ⟨t, rfl⟩
  · exact h'
  · rw [List.prefix_append_right_inj] at h
    cases t with
    | nil => rw [List.append_nil]
    | cons b t =>
      obtain ⟨rfl, -⟩ := List.cons_prefix_cons.1 h
      exact absurd (List.mem_append_right _ List.mem_cons_self) ha

/-- A beginning that does not end in a blank is left by trimming. -/
theorem prefix_trimEnd {lead : List Char} (hlead : Text.trimEnd lead = lead) (more : List Char) :
    lead <+: Text.trimEnd (lead ++ more) := by
  induction more using List.reverseRecOn with
  | nil => rw [List.append_nil, hlead]
  | append_singleton more c ih =>
    rw [← List.append_assoc]
    by_cases hblank : Text.isBlank c = true
    · rwa [trimEnd_concat_of_blank hblank]
    · rw [trimEnd_concat (by simpa using hblank), List.append_assoc]
      exact List.prefix_append lead _

end Leads

section Statuses

theorem encodeChars_digits (n : Nat) : Escape.encodeChars (Decimal.digits n) = Decimal.digits n := by
  have hspecial : ∀ c ∈ Escape.special, Decimal.isDigit c = false :=
    List.all_iff_forall_prop.1 (by decide)
  refine Escape.encodeChars_of_plain fun c hc hmem => ?_
  exact Bool.false_ne_true ((hspecial c hmem).symm.trans (Decimal.digits_isDigit n c hc))

theorem rdropWhile_unshorn {value : String} (h : Escape.Unshorn value) :
    value.toList.rdropWhile Escape.isBare = value.toList := by
  rw [List.rdropWhile_eq_self_iff]
  intro hne
  have hlast := h _ (List.getLast?_eq_getLast_of_ne_nil hne)
  rw [hlast]
  exact Bool.false_ne_true

namespace Status

/-- The two fields of a status line. -/
def record (s : Status) : Record := ⟨[("id", .ofList (Decimal.digits s.id)), ("msg", s.message)]⟩

theorem record_writable (s : Status) : s.record.Writable where
  nonempty := List.cons_ne_nil _ _
  distinct := by simp [Record.keys, record]
  keys := by
    simp only [Record.keys, record, List.map_cons, List.map_nil, List.mem_cons, List.not_mem_nil,
      or_false, forall_eq_or_imp, forall_eq]
    decide

theorem written_eq (s : Status) : s.written = lead ++ s.record.toChars := by
  have hidLead : "error id=".toList = lead ++ "id".toList ++ ['='] := by decide
  have hmsgLead : " msg=".toList = [' '] ++ "msg".toList ++ ['='] := by decide
  have hid : Record.fieldChars ("id", .ofList (Decimal.digits s.id)) =
      "id".toList ++ '=' :: Decimal.digits s.id := by
    rw [Record.fieldChars]
    simp only [String.toList_ofList, encodeChars_digits]
  unfold written Record.toChars record
  rw [hidLead, hmsgLead, List.map_cons, List.map_cons, List.map_nil, Text.join, Text.join, hid,
    Record.fieldChars]
  simp only [List.append_assoc, List.cons_append, List.nil_append]

theorem trimEnd_written {s : Status} (h : Escape.Unshorn s.message) :
    Text.trimEnd s.written = s.written := by
  have hlast : " msg=".toList = " msg".toList ++ ['='] := by decide
  unfold written
  rw [hlast, ← List.append_assoc, trimEnd_encodeChars (trimEnd_concat (by decide)),
    rdropWhile_unshorn h]

/-- **The status that was written is read from its line.** -/
theorem ofChars_written {s : Status} (hid : s.id < Decimal.bound32)
    (hmessage : Escape.Unshorn s.message) : ofChars s.written = some s := by
  have hlead : Text.dropLead? lead (Text.trimEnd s.written) = some s.record.toChars := by
    rw [trimEnd_written hmessage, written_eq, dropLead?_append]
  have hget : s.record.get? "id" = some (.ofList (Decimal.digits s.id)) := by
    simp [Record.get?, record, Record.lookup]
  have hmsg : s.record.get? "msg" = some s.message := by
    simp [Record.get?, record, Record.lookup]
  have hread := Decimal.read?_digits Decimal.bound32 s.id hid
  simp [ofChars, hlead, Record.ofChars_toChars s.record_writable, hget, hmsg, hread]

/-- A line that does not begin as a status line is none. -/
theorem ofChars_none {line : List Char} (h : ¬ lead <+: Text.trimEnd line) : ofChars line = none := by
  simp [ofChars, dropLead?_none h]

/-- No character of a status line breaks it. -/
theorem mem_written {s : Status} {c : Char} (h : c ∈ s.written) : c ≠ '\n' ∧ c ≠ '\r' := by
  rw [written_eq] at h
  rcases List.mem_append.1 h with h | h
  · have hlf : '\n' ∉ lead := by decide
    have hcr : '\r' ∉ lead := by decide
    exact ⟨ne_of_mem_of_not_mem h hlf, ne_of_mem_of_not_mem h hcr⟩
  · exact (Record.mem_toChars s.record_writable h).2

end Status

end Statuses

section DataLines

variable {records : List Record}

/-- A line of records begins with its first key and an equals sign. -/
theorem lineChars_head (hne : records ≠ []) (hw : ∀ r ∈ records, r.Writable) :
    ∃ r more f rest, records.head? = some r ∧ r.fields.head? = some f ∧ Record.Key f.1 ∧
      Record.lineChars records = r.toChars ++ more ∧
      Record.lineChars records = f.1.toList ++ '=' :: rest := by
  obtain ⟨r, rs, rfl⟩ := List.exists_cons_of_ne_nil hne
  have hr : r.Writable := hw r List.mem_cons_self
  obtain ⟨f, fields, rest, hfields, heq⟩ := Record.toChars_head hr
  have hkey : Record.Key f.1 := hr.key_of_mem (by rw [hfields]; exact List.mem_cons_self)
  have hline : ∃ more, Record.lineChars (r :: rs) = r.toChars ++ more := by
    cases rs with
    | nil => exact ⟨[], by simp [Record.lineChars, Text.join]⟩
    | cons s rs => exact ⟨_, List.append_assoc _ _ _⟩
  obtain ⟨more, hmore⟩ := hline
  exact ⟨r, more, f, rest ++ more, rfl, by rw [hfields]; rfl, hkey, hmore, by rw [hmore, heq]; simp⟩

theorem trimEnd_presentable (h : Record.Presentable records) :
    Text.trimEnd (Record.lineChars records) = Record.lineChars records := by
  obtain ⟨earlier, front, key, value, rfl⟩ := Record.exists_last_value h.nonempty h.writable
  have hvalue : Escape.Unshorn value := h.unshorn ⟨front ++ [(key, value)]⟩ (by simp) (key, value) (by simp)
  rw [Record.trimEnd_lineChars, Escape.shear, rdropWhile_unshorn hvalue, String.ofList_toList]

theorem trim_presentable (h : Record.Presentable records) :
    Text.trim (Record.lineChars records) = Record.lineChars records := by
  obtain ⟨r, more, f, rest, hr, -, -, hline, -⟩ := lineChars_head h.nonempty h.writable
  have hw : r.Writable := h.writable r (List.mem_of_mem_head? hr)
  have hstart : Text.trimStart (Record.lineChars records) = Record.lineChars records := by
    rw [hline, Record.trimStart_toChars hw]
  rw [Text.trim, hstart, trimEnd_presentable h]

/-- A line of records is no status line: a space comes after its first equals sign. -/
theorem not_lead_lineChars (hne : records ≠ []) (hw : ∀ r ∈ records, r.Writable) :
    ¬ Status.lead <+: Record.lineChars records := by
  obtain ⟨r, more, f, rest, -, -, hkey, -, heq⟩ := lineChars_head hne hw
  intro hlead
  rw [heq] at hlead
  have hspace : ' ' ∈ f.1.toList :=
    (prefix_of_prefix_cons hlead (by decide)).subset (by decide : ' ' ∈ Status.lead)
  exact (hkey.plain hspace).1 rfl

/-- A line of records is no notice unless its first key is. -/
theorem not_noticeLead_lineChars (h : Record.Presentable records) :
    ¬ Link.noticeLead <+: Record.lineChars records := by
  obtain ⟨r, more, f, rest, hr, hf, -, -, heq⟩ := lineChars_head h.nonempty h.writable
  intro hlead
  rw [heq] at hlead
  exact h.heading r hr f hf (prefix_of_prefix_cons hlead (by decide))

theorem mem_lineChars (hw : ∀ r ∈ records, r.Writable) {c : Char}
    (hc : c ∈ Record.lineChars records) : c ≠ '\n' ∧ c ≠ '\r' := by
  rcases mem_join hc with hc | ⟨w, hw', hc⟩
  · rw [List.mem_singleton.1 hc]
    decide
  · obtain ⟨r, hr, rfl⟩ := List.mem_map.1 hw'
    exact (Record.mem_toChars (hw r hr) hc).2

end DataLines

section Passages

variable {p : Passage}

/-- **No line before the status line is taken for it.** -/
theorem parse?_passage (h : p.WellFormed) : Status.parse? (Line.textOf p.octets) = none := by
  rw [Status.parse?, Line.textOf, String.toList_ofList]
  refine Status.ofChars_none ?_
  cases p with
  | data records =>
    rw [Passage.octets, Utf8.decode_encode, trimEnd_presentable h]
    exact not_lead_lineChars h.nonempty h.writable
  | notice octets =>
    intro hlead
    rcases List.prefix_or_prefix_of_prefix (hlead.trans (List.rdropWhile_prefix _ _)) h.2 with h' | h'
    all_goals exact absurd h' (by decide)
  | blank octets =>
    have hnil : Text.trimEnd (Utf8.decode octets) = [] := List.rdropWhile_eq_nil_iff.2 h.2
    rw [Passage.octets, hnil]
    decide

/-- **The records that a line adds.** -/
theorem recordsIn_passage (h : p.WellFormed) :
    Link.recordsIn (Line.textOf p.octets) = p.records := by
  unfold Link.recordsIn
  rw [Line.textOf, String.toList_ofList]
  cases p with
  | data records =>
    have hrecords := Record.listOfChars_of_trimEnd h.nonempty h.writable (trimEnd_presentable h)
    obtain ⟨r, more, f, rest, -, -, -, -, heq⟩ := lineChars_head h.nonempty h.writable
    have hne : (Record.lineChars records).isEmpty = false := by simp [heq]
    simp [Passage.octets, Passage.records, trim_presentable h, hrecords, hne,
      dropLead?_none (not_noticeLead_lineChars h)]
  | notice octets =>
    obtain ⟨more, hmore⟩ := h.2
    have hstart : Text.trimStart (Utf8.decode octets) = Utf8.decode octets := by
      rw [← hmore]
      rfl
    have hnotice : Link.noticeLead <+: Text.trim (Utf8.decode octets) := by
      rw [Text.trim, hstart, ← hmore]
      exact prefix_trimEnd (by decide) more
    simp [Passage.octets, Passage.records, dropLead?_isSome.2 hnotice]
  | blank octets =>
    have hstart : Text.trimStart (Utf8.decode octets) = [] := List.dropWhile_eq_nil_iff.2 h.2
    simp [Passage.octets, Passage.records, Text.trim, Text.trimEnd, hstart]

end Passages

section Octets

/-- A text without line breaks is one line. -/
theorem cut_encode {cs : List Char} (h : ∀ c ∈ cs, c ≠ '\n' ∧ c ≠ '\r') :
    Line.cut (Utf8.encode cs) = none := by
  rw [Line.cut_eq_none_iff]
  intro hin
  have hlf : Line.lf ∈ Utf8.encode cs := hin.subset (by decide)
  exact (h _ (Utf8.mem_encode hlf (by decide))).1 (by decide)

theorem cut_passage {p : Passage} (h : p.WellFormed) : Line.cut p.octets = none := by
  cases p with
  | data records => exact cut_encode fun c hc => mem_lineChars h.writable hc
  | notice octets => exact h.1
  | blank octets => exact h.1

theorem cut_status (s : Status) : Line.cut (Utf8.encode s.written) = none :=
  cut_encode fun _ hc => Status.mem_written hc

end Octets

end VoiceRelay
