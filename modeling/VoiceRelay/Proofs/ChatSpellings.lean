import VoiceRelay.Proofs.JsonNumerals
import VoiceRelay.Proofs.PushFormat

/-!
# The two spellings of a chat payload

The payload of a chat packet is a value, or a string that holds the text of a value. The value is taken
apart where it stands (`ChatMessage.ofValue`); the text is read event by event (`ChatMessage.decoder`).
Both find the same message or none, whatever else the value holds, however deep it is nested and
however its numbers are written.

**Design.** Only success is compared: the two readers look at the parts in another order and so report
other problems. A value that is skipped leaves its reader where its events end (`skipFrom_value`), so
members with other names do not matter. `Form` says which values spell a message, without any reader.

**Results.**

- `members_agree`, `tuple_agree`: the two readers agree on objects and on arrays.
- `ofValue_iff`: a value spells a message if it has one of the forms.
- `spellings_agree`: both spellings of a payload mean the same.
-/

namespace VoiceRelay

open Json (Value Problem Decoder Event Number)

namespace Json
namespace Decoder

section Skipping

variable {read : Number → Except Problem Number}

/-- Parts that are skipped one by one are skipped with the commas between them. -/
theorem skipFrom_separated {depth : Nat} {ess : List (List Event)}
    (h : ∀ es ∈ ess, ∀ rest, skipFrom depth (es ++ rest) = skipFrom depth rest) (rest : List Event) :
    skipFrom depth (separated ess ++ rest) = skipFrom depth rest := by
  induction ess with
  | nil => rfl
  | cons es ess ih =>
    cases ess with
    | nil => exact h es List.mem_cons_self rest
    | cons es' ess =>
      rw [separated_cons_cons, List.append_assoc, h es List.mem_cons_self, List.cons_append, skipFrom]
      exact ih fun es hes => h es (List.mem_cons_of_mem _ hes)

/-- **Any value is skipped to its end**: alone, or inside the brackets that are open. -/
theorem skipFrom_value (v : Value) (depth : Nat) (rest : List Event) :
    skipFrom depth (v.eventsWith (Event.number ∘ read) ++ rest) =
      if depth = 0 then .ok rest else skipFrom depth rest := by
  induction v using Value.nested generalizing depth rest with
  | null | number _ | text _ => rfl
  | bool b => cases b <;> rfl
  | array items ih =>
    rw [eventsWith_array, List.cons_append, List.append_assoc, skipFrom, skipFrom_separated]
    · simp [skipFrom]
    · intro es hes rest
      obtain ⟨v, hv, rfl⟩ := List.mem_map.1 hes
      exact (ih v hv (depth + 1) rest).trans (if_neg depth.succ_ne_zero)
  | object members ih =>
    rw [eventsWith_object, List.cons_append, List.append_assoc, skipFrom, skipFrom_separated]
    · simp [skipFrom]
    · intro es hes rest
      obtain ⟨m, hm, rfl⟩ := List.mem_map.1 hes
      rw [memberWith, List.cons_append, List.cons_append, skipFrom, skipFrom]
      exact (ih m hm (depth + 1) rest).trans (if_neg depth.succ_ne_zero)

end Skipping

section Members

variable {φ : Type}

/-- The members behind the first one; the comma in front of them changes nothing. -/
theorem members_tail (field : String → Option (Decoder φ)) (es : List Event) (ess : List (List Event)) :
    ∃ tail, separated (es :: ess) = es ++ tail ∧ ∀ (seen : List (String × φ)) (rest : List Event),
      members field seen (tail ++ .closeObject :: rest) =
        members field seen (separated ess ++ .closeObject :: rest) := by
  cases ess with
  | nil => exact ⟨[], (List.append_nil es).symm, fun _ _ => rfl⟩
  | cons es' ess =>
    refine ⟨_, separated_cons_cons es es' ess, fun seen rest => ?_⟩
    rw [List.cons_append, members]

end Members

section Items

variable {φ : Type}

/-- A comma in front of an item does not decide whether the items are read. -/
theorem tuple_comma {es : List Event} (hopens : Opens es) (seen : List φ) (ds : List (Decoder φ))
    (rest : List Event) :
    (tuple seen ds (.comma :: (es ++ rest))).toOption = (tuple seen ds (es ++ rest)).toOption := by
  obtain ⟨hclosed, hdrop⟩ := hopens rest
  have hcomma : closed? (.comma :: (es ++ rest)) = none ∧
      dropComma (.comma :: (es ++ rest)) = es ++ rest := ⟨rfl, rfl⟩
  cases ds with
  | nil =>
    simp only [tuple, hclosed, hcomma]
    rfl
  | cons d ds => simp only [tuple, hclosed, hcomma, hdrop]

/-- The items behind the first one. -/
theorem tuple_tail (es : List Event) {ess : List (List Event)} (hopens : ∀ es ∈ ess, Opens es) :
    ∃ tail, separated (es :: ess) = es ++ tail ∧
      ∀ (seen : List φ) (ds : List (Decoder φ)) (rest : List Event),
        (tuple seen ds (tail ++ .closeArray :: rest)).toOption =
          (tuple seen ds (separated ess ++ .closeArray :: rest)).toOption := by
  cases ess with
  | nil => exact ⟨[], (List.append_nil es).symm, fun _ _ _ => rfl⟩
  | cons es' ess =>
    refine ⟨_, separated_cons_cons es es' ess, fun seen ds rest => ?_⟩
    obtain ⟨tail, htail⟩ := separated_cons_append es' ess
    rw [List.cons_append, htail, List.append_assoc]
    exact tuple_comma (hopens es' List.mem_cons_self) seen ds _

end Items

end Decoder
end Json

namespace ChatMessage

section Defs

/-- The fields of a message, in order. -/
def fields : List (String × Decoder String) :=
  [(ipField, .text), (messageField, .text), (timeField, .text)]

/-- The names of the fields. -/
def Known (k : String) : Prop := k = ipField ∨ k = messageField ∨ k = timeField

instance : DecidablePred Known := fun k =>
  inferInstanceAs (Decidable (k = ipField ∨ k = messageField ∨ k = timeField))

/-- The values of the members with a name. -/
def named (k : String) (members : List (String × Value)) : List Value :=
  (members.filter fun m => m.1 == k).map Prod.snd

/-- At most one value, a string. -/
def slot (s : Option String) : List Value := (s.map Value.text).toList

/-- The values that spell a message: an object in which each field comes at most once and as a string,
the text once, or an array of two or three strings. What is missing is empty. -/
inductive Form : Value → ChatMessage → Prop
  | members {ms : List (String × Value)} {ip time : Option String} {text : String} :
      named ipField ms = slot ip → named messageField ms = [.text text] →
      named timeField ms = slot time → Form (.object ms) ⟨ip.getD "", text, time.getD ""⟩
  | pair (ip text : String) : Form (.array [.text ip, .text text]) ⟨ip, text, ""⟩
  | triple (ip text time : String) :
      Form (.array [.text ip, .text text, .text time]) ⟨ip, text, time⟩

end Defs

section Agreement

variable (read : Number → Except Problem Number)

theorem lookup_fields (k : String) :
    fields.lookup k = if Known k then some .text else none := by
  have hknown : Known k ↔ (k == ipField || (k == messageField || k == timeField)) = true := by
    simp [Known]
  simp only [fields, List.lookup_cons, List.lookup_nil, hknown]
  cases k == ipField <;> cases k == messageField <;> cases k == timeField <;> rfl

theorem knownMembers_cons (seen : List (String × String)) (k : String) (v : Value)
    (ms : List (String × Value)) :
    knownMembers seen ((k, v) :: ms) =
      if Known k then
        if seen.any (fun s => s.1 == k) then .error .mismatched
        else
          match textOf v with
          | .error p => .error p
          | .ok s => knownMembers ((k, s) :: seen) ms
      else knownMembers seen ms := rfl

/-- A string is read, anything else is not, by either reader. -/
theorem text_run (v : Value) (rest : List Event) :
    (∃ s, v = .text s ∧
      Decoder.text.run (v.eventsWith (Event.number ∘ read) ++ rest) = .ok (s, rest)) ∨
    (∃ q, textOf v = .error q) ∧
      ∃ p, Decoder.text.run (v.eventsWith (Event.number ∘ read) ++ rest) = .error p := by
  cases v with
  | text s => exact Or.inl ⟨s, rfl, rfl⟩
  | bool b => cases b <;> exact Or.inr ⟨⟨_, rfl⟩, _, rfl⟩
  | null | number _ | array _ | object _ => exact Or.inr ⟨⟨_, rfl⟩, _, rfl⟩

/-- **Both readers agree on the members of an object.** -/
theorem members_agree (seen : List (String × String)) (ms : List (String × Value))
    (rest : List Event) :
    (Decoder.members (fun k => fields.lookup k) seen
      (Json.separated (ms.map (Json.memberWith (Event.number ∘ read))) ++
        .closeObject :: rest)).toOption = (knownMembers seen ms).toOption.map (·, rest) := by
  induction ms generalizing seen with
  | nil =>
    rw [List.map_nil, Json.separated, List.nil_append, Decoder.members]
    rfl
  | cons m ms ih =>
    obtain ⟨k, v⟩ := m
    obtain ⟨tail, htail, hrest⟩ := Decoder.members_tail (fun k => fields.lookup k)
      (Json.memberWith (Event.number ∘ read) (k, v))
      (ms.map (Json.memberWith (Event.number ∘ read)))
    rw [List.map_cons, htail, Json.memberWith, List.append_assoc, List.cons_append, List.cons_append,
      Decoder.members_eq, lookup_fields, knownMembers_cons]
    by_cases hk : Known k
    · rw [if_pos hk, if_pos hk]
      by_cases hseen : seen.any (fun s => s.1 == k) = true
      · simp only [hseen, if_true]
        rfl
      · simp only [if_neg hseen]
        rcases text_run read v (tail ++ .closeObject :: rest) with
          ⟨s, rfl, hrun⟩ | ⟨⟨q, hq⟩, p, hrun⟩
        · simp only [hrun, hrest, ih]
          rfl
        · simp only [hrun, hq]
          rfl
    · rw [if_neg hk, if_neg hk]
      simp only [Decoder.skipFrom_value, if_true, hrest, ih]

theorem opens_eventsWith (v : Value) : Decoder.Opens (v.eventsWith (Event.number ∘ read)) := by
  intro rest
  cases v with
  | bool b => cases b <;> exact ⟨rfl, rfl⟩
  | null | number _ | text _ | array _ | object _ => exact ⟨rfl, rfl⟩

/-- **Both readers agree on the items of an array**, as far as there are fields for them. -/
theorem tuple_agree (n : Nat) (seen : List String) (items : List Value) (rest : List Event) :
    (Decoder.tuple seen (List.replicate n .text)
      (Json.separated (items.map (Value.eventsWith (Event.number ∘ read))) ++
        .closeArray :: rest)).toOption =
      if items.length ≤ n then
        (items.mapM textOf).toOption.map fun ss => (seen.reverse ++ ss, rest)
      else none := by
  induction items generalizing n seen with
  | nil =>
    have hread : Decoder.tuple seen (List.replicate n .text) (.closeArray :: rest) =
        .ok (seen.reverse, rest) := by
      rw [Decoder.tuple]
      rfl
    simp only [List.map_nil, Json.separated, List.nil_append, hread, List.length_nil, Nat.zero_le,
      if_true, List.mapM_nil]
    simp [Except.toOption, pure, Except.pure]
  | cons v items ih =>
    have hopens : ∀ es ∈ items.map (Value.eventsWith (Event.number ∘ read)),
        Decoder.Opens es := by
      intro es hes
      obtain ⟨w, -, rfl⟩ := List.mem_map.1 hes
      exact opens_eventsWith read w
    obtain ⟨tail, htail, hrest⟩ := Decoder.tuple_tail (φ := String)
      (v.eventsWith (Event.number ∘ read)) hopens
    obtain ⟨hclosed, hdrop⟩ := opens_eventsWith read v (tail ++ .closeArray :: rest)
    rw [List.map_cons, htail, List.append_assoc]
    cases n with
    | zero =>
      rw [if_neg (by simp)]
      simp only [List.replicate_zero, Decoder.tuple, hclosed]
      rfl
    | succ n =>
      simp only [List.replicate_succ, Decoder.tuple, hclosed, hdrop, List.length_cons,
        Nat.add_le_add_iff_right, List.mapM_cons]
      rcases text_run read v (tail ++ .closeArray :: rest) with
        ⟨s, rfl, hrun⟩ | ⟨⟨q, hq⟩, p, hrun⟩
      · simp only [hrun, hrest, ih, textOf]
        cases items.mapM textOf <;> simp [Except.toOption, bind, Except.bind, pure, Except.pure]
      · simp only [hrun, hq]
        simp [Except.toOption, bind, Except.bind]

/-- Items are all strings if they are read. -/
theorem mapM_textOf (items : List Value) (ss : List String) :
    items.mapM textOf = .ok ss ↔ items = ss.map .text := by
  constructor
  · intro h
    induction items generalizing ss with
    | nil =>
      cases h
      rfl
    | cons v items ih =>
      rw [List.mapM_cons] at h
      rcases v with _ | _ | _ | s | _ | _
      case text =>
        rcases hitems : items.mapM textOf with q | rest
        · rw [hitems] at h
          cases h
        · rw [hitems] at h
          cases h
          rw [List.map_cons, ← ih rest hitems]
      all_goals cases h
  · rintro rfl
    have htext : ∀ s, textOf (.text s) = .ok s := fun _ => rfl
    exact mapM_map htext ss

/-- A message made of parts that were read, and the events behind them. -/
def assemble {α : Type} (make : α → Except Problem ChatMessage) :
    Except Problem (α × List Event) → Except Problem (ChatMessage × List Event)
  | .error p => .error p
  | .ok (a, rest) => (make a).map (·, rest)

theorem decoder_object (es : List Event) :
    decoder.run (.openObject :: es) =
      assemble ofMembers (Decoder.members (fun k => fields.lookup k) [] es) := by
  simp only [decoder, Decoder.structured, Decoder.runStructure]
  unfold fields assemble
  rcases Decoder.members _ [] es with p | ⟨read, rest⟩ <;> rfl

theorem decoder_array (es : List Event) :
    decoder.run (.openArray :: es) =
      assemble ofItems (Decoder.tuple [] (List.replicate 3 .text) es) := by
  simp only [decoder, Decoder.structured, Decoder.runStructure, List.map_cons, List.map_nil,
    List.replicate]
  rcases Decoder.tuple _ _ es with p | ⟨read, rest⟩ <;> rfl

/-- What is made of parts that both readers agree on. -/
theorem assemble_agree {α : Type} {parts : Except Problem (α × List Event)}
    {whole : Except Problem α} {rest : List Event}
    (h : parts.toOption = whole.toOption.map (·, rest)) (make : α → Except Problem ChatMessage) :
    (assemble make parts).toOption = (whole >>= make).toOption.map (·, rest) := by
  rcases parts with p | ⟨a, rest'⟩ <;> rcases whole with q | b <;>
    simp only [Except.toOption, Option.map_some, Option.map_none, reduceCtorEq] at h
  · rfl
  · obtain ⟨rfl, rfl⟩ := Prod.mk.inj (Option.some.inj h)
    cases hmake : make a <;>
      simp [assemble, Except.toOption, Except.map, bind, Except.bind, hmake]

/-- **Both readers find the same message**, or none. -/
theorem decoder_agree (v : Value) :
    (decoder.run (v.eventsWith (Event.number ∘ read))).toOption =
      (ofValue v).toOption.map (·, []) := by
  cases v with
  | bool b => cases b <;> rfl
  | null | number _ | text _ => rfl
  | array items =>
    rw [Json.eventsWith_array, decoder_array]
    have hitems := tuple_agree read 3 [] items []
    by_cases hlength : items.length ≤ 3
    · rw [if_pos hlength] at hitems
      exact assemble_agree hitems ofItems
    · -- Of more than three items the text is not read to its end, and the value is no message.
      rw [if_neg hlength] at hitems
      have hparts : ∀ parts : Except Problem (List String × List Event), parts.toOption = none →
          (assemble ofItems parts).toOption = none := by
        intro parts hparts
        cases parts with
        | error p => rfl
        | ok read => cases hparts
      have hmany : (ofValue (.array items)).toOption = none := by
        rw [ofValue]
        rcases hread : items.mapM textOf with q | ss
        · rfl
        · obtain rfl := (mapM_textOf items ss).1 hread
          rcases ss with _ | ⟨_, _ | ⟨_, _ | ⟨_, _ | ⟨_, ss⟩⟩⟩⟩
          case cons.cons.cons.cons => rfl
          all_goals simp at hlength
      rw [hmany, hparts _ hitems]
      rfl
  | object ms =>
    rw [Json.eventsWith_object, decoder_object]
    exact assemble_agree (members_agree read [] ms []) ofMembers

end Agreement

section Forms

variable {ms : List (String × Value)} {seen out : List (String × String)} {k : String}

theorem slot_injective {s t : Option String} (h : slot s = slot t) : s = t := by
  cases s <;> cases t <;> simp_all [slot]

theorem named_self (k : String) (v : Value) (ms : List (String × Value)) :
    named k ((k, v) :: ms) = v :: named k ms := by
  simp [named]

theorem named_other {k' : String} (h : k' ≠ k) (v : Value) (ms : List (String × Value)) :
    named k ((k', v) :: ms) = named k ms := by
  simp [named, h]

theorem lookup_other {k' : String} (h : k' ≠ k) (s : String) (seen : List (String × String)) :
    ((k', s) :: seen).lookup k = seen.lookup k := by
  rw [List.lookup_cons, beq_false_of_ne h.symm]

theorem any_seen (seen : List (String × String)) (k : String) :
    seen.any (fun s => s.1 == k) = false ↔ seen.lookup k = none := by
  rw [List.lookup_eq_none_iff, List.any_eq_false]
  refine forall₂_congr fun s _ => ?_
  rw [beq_iff_eq, bne_iff_ne]
  exact ne_comm

/-- **What is read of an object is what its members say**, each known name once. -/
theorem knownMembers_ok (h : knownMembers seen ms = .ok out) (hk : Known k) :
    slot (out.lookup k) = slot (seen.lookup k) ++ named k ms := by
  induction ms generalizing seen with
  | nil =>
    obtain rfl := Except.ok.inj h
    exact (List.append_nil _).symm
  | cons m ms ih =>
    obtain ⟨k', v⟩ := m
    rw [knownMembers_cons] at h
    by_cases hknown : Known k'
    · rw [if_pos hknown] at h
      split at h
      · cases h
      · next hseen =>
        have hnew := (any_seen seen k').1 (Bool.eq_false_iff.2 hseen)
        rcases v with _ | _ | _ | s | _ | _
        case text =>
          have hrest := ih h
          by_cases hkey : k' = k
          · subst hkey
            rw [hrest, named_self, hnew, List.lookup_cons_self]
            rfl
          · rw [hrest, named_other hkey, lookup_other hkey]
        all_goals cases h
    · rw [if_neg hknown] at h
      have hkey : k' ≠ k := fun heq => hknown (heq ▸ hk)
      rw [ih h, named_other hkey]

/-- **An object is read** if each known name comes at most once, as a string. -/
theorem exists_knownMembers (h : ∀ k, Known k → ∃ s, slot (seen.lookup k) ++ named k ms = slot s) :
    ∃ out, knownMembers seen ms = .ok out := by
  induction ms generalizing seen with
  | nil => exact ⟨seen, rfl⟩
  | cons m ms ih =>
    obtain ⟨k', v⟩ := m
    rw [knownMembers_cons]
    by_cases hknown : Known k'
    · rw [if_pos hknown]
      obtain ⟨s, hs⟩ := h k' hknown
      rw [named_self] at hs
      -- One slot holds one value: nothing was seen under this name, and nothing comes later.
      obtain ⟨hnew, t, rfl, hlater⟩ : seen.lookup k' = none ∧
          ∃ t, v = .text t ∧ named k' ms = [] := by
        cases s <;> cases hlookup : seen.lookup k' <;> simp_all [slot]
      rw [if_neg (by rw [(any_seen seen k').2 hnew]; exact Bool.false_ne_true)]
      refine ih fun k hk => ?_
      by_cases hkey : k' = k
      · subst hkey
        rw [List.lookup_cons_self, hlater]
        exact ⟨some t, rfl⟩
      · obtain ⟨s, hs⟩ := h k hk
        rw [named_other hkey] at hs
        rw [lookup_other hkey]
        exact ⟨s, hs⟩
    · rw [if_neg hknown]
      refine ih fun k hk => ?_
      have hkey : k' ≠ k := fun heq => hknown (heq ▸ hk)
      rw [← named_other hkey v ms]
      exact h k hk

theorem ofValue_object (ms : List (String × Value)) (m : ChatMessage) :
    ofValue (.object ms) = .ok m ↔ Form (.object ms) m := by
  have hip : Known ipField := Or.inl rfl
  have hmessage : Known messageField := Or.inr (Or.inl rfl)
  have htime : Known timeField := Or.inr (Or.inr rfl)
  constructor
  · intro h
    rcases hread : knownMembers [] ms with q | out
    · rw [ofValue, hread] at h
      cases h
    · rcases htext : out.lookup messageField with _ | text
      · simp only [ofValue, hread, bind, Except.bind, ofMembers, htext] at h
        cases h
      · simp only [ofValue, hread, bind, Except.bind, ofMembers, htext] at h
        obtain rfl := Except.ok.inj h
        have hnamed := knownMembers_ok hread hmessage
        rw [htext] at hnamed
        exact .members (knownMembers_ok hread hip).symm hnamed.symm (knownMembers_ok hread htime).symm
  · intro h
    cases h with
    | @members _ ip time text hnamedIp hnamedText hnamedTime =>
      have hslots : ∀ k, Known k → ∃ s, slot (([] : List (String × String)).lookup k) ++ named k ms =
          slot s := by
        rintro k (rfl | rfl | rfl)
        · exact ⟨ip, hnamedIp⟩
        · exact ⟨some text, hnamedText⟩
        · exact ⟨time, hnamedTime⟩
      obtain ⟨out, hread⟩ := exists_knownMembers hslots
      have hlookupIp : out.lookup ipField = ip :=
        slot_injective ((knownMembers_ok hread hip).trans hnamedIp)
      have hlookupText : out.lookup messageField = some text :=
        slot_injective ((knownMembers_ok hread hmessage).trans hnamedText)
      have hlookupTime : out.lookup timeField = time :=
        slot_injective ((knownMembers_ok hread htime).trans hnamedTime)
      simp only [ofValue, hread, bind, Except.bind, ofMembers, hlookupText, hlookupIp, hlookupTime]

theorem ofValue_array (items : List Value) (m : ChatMessage) :
    ofValue (.array items) = .ok m ↔ Form (.array items) m := by
  constructor
  · intro h
    rcases hread : items.mapM textOf with q | ss
    · rw [ofValue, hread] at h
      cases h
    · rw [ofValue, hread] at h
      obtain rfl := (mapM_textOf items ss).1 hread
      rcases ss with _ | ⟨ip, _ | ⟨text, _ | ⟨time, _ | ⟨_, ss⟩⟩⟩⟩
      case cons.cons.nil =>
        obtain rfl := Except.ok.inj h
        exact .pair ip text
      case cons.cons.cons.nil =>
        obtain rfl := Except.ok.inj h
        exact .triple ip text time
      all_goals cases h
  · intro h
    cases h with
    | pair ip text => rfl
    | triple ip text time => rfl

/-- **A value spells a message** if it has one of the forms, and then that message. -/
theorem ofValue_iff (v : Value) (m : ChatMessage) : ofValue v = .ok m ↔ Form v m := by
  cases v with
  | object ms => exact ofValue_object ms m
  | array items => exact ofValue_array items m
  | null | bool _ | number _ | text _ => exact ⟨nofun, nofun⟩

end Forms

end ChatMessage

namespace Packet

section Defs

/-- A packet with a value under the header for chat. -/
def inline (v : Value) : Packet := ⟨Header.chat.name, v⟩

/-- A packet with the text of a value under the header for chat, its numbers spelled in some way. -/
def quoted (spell : Number → List Char) (v : Value) : Packet :=
  ⟨Header.chat.name, .text (v.compact spell)⟩

/-- What a chat packet means when its message was read, or was not. -/
def heard : Except Problem ChatMessage → Except PacketFault Incoming
  | .ok m => .ok (.chat m)
  | .error q => .error (.payload Header.chat.name q)

/-- Both mean the same message, or both have a faulty payload. -/
inductive Alike : Except PacketFault Incoming → Except PacketFault Incoming → Prop
  | chat (m : ChatMessage) : Alike (.ok (.chat m)) (.ok (.chat m))
  | faulty (q q' : Problem) :
      Alike (.error (.payload Header.chat.name q)) (.error (.payload Header.chat.name q'))

end Defs

section Spellings

variable {v : Value} {spell : Number → List Char} {x y : Except Problem ChatMessage}

theorem open?_chat (payload : Value) :
    (⟨Header.chat.name, payload⟩ : Packet).open? = heard (chatOf payload) := if_pos rfl

theorem heard_alike (h : x.toOption = y.toOption) : Alike (heard x) (heard y) := by
  cases x <;> cases y <;> cases h
  · exact .faulty _ _
  · exact .chat _

theorem heard_eq_chat_iff {m : ChatMessage} : heard x = .ok (.chat m) ↔ x = .ok m := by
  cases x <;> simp [heard]

/-- A whole text is read if its events are read to their end. -/
theorem readAll_toOption {d : Decoder ChatMessage} {text : String}
    (h : (d.run (Json.scan text)).toOption = x.toOption.map (·, [])) :
    (d.readAll text).toOption = x.toOption := by
  rw [Decoder.readAll]
  generalize d.run (Json.scan text) = run at h ⊢
  rcases run with p | ⟨m, rest⟩ <;> rcases x with q | m' <;>
    simp only [Except.toOption, Option.map_some, Option.map_none, reduceCtorEq] at h
  · rfl
  · obtain ⟨rfl, rfl⟩ := Prod.mk.inj (Option.some.inj h)
    rfl

/-- The value is read where it stands as its text is read in a string. -/
theorem chatOf_agree (hv : ∀ s, v ≠ .text s) (hspell : ∀ n, Json.Spelled (spell n)) :
    (chatOf v).toOption = (chatOf (.text (v.compact spell))).toOption := by
  obtain ⟨read, hscan⟩ := Json.scan_compact hspell
  have hagree := ChatMessage.decoder_agree read v
  rw [← hscan v] at hagree
  rw [chatOf.eq_2 v hv, chatOf, readAll_toOption hagree]

/-- **Both spellings of a payload mean the same.** A value that is no string, and its text in a string
with the numbers spelled in any way of the grammar, mean the same message under the header for chat, or
both have a faulty payload. They mean a message if the value has one of its forms, and only then. -/
theorem spellings_agree (v : Value) (hv : ∀ s, v ≠ .text s) (spell : Number → List Char)
    (hspell : ∀ n, Json.Spelled (spell n)) :
    Alike (inline v).open? (quoted spell v).open? ∧
      ∀ m, (inline v).open? = .ok (.chat m) ↔ ChatMessage.Form v m := by
  rw [inline, quoted, open?_chat, open?_chat]
  refine ⟨heard_alike (chatOf_agree hv hspell), fun m => ?_⟩
  rw [heard_eq_chat_iff, chatOf.eq_2 v hv, ChatMessage.ofValue_iff]

/-- An object whose text holds a quote and a line feed, with members that are passed over: one of them
holds a number out of range, and an object that names a text of its own. -/
def crowded : Value :=
  .object [("extra", .array [.number (.decimal true 5 400), .object [("message", .null)]]),
    ("time", .text "12:30"), ("message", .text "a\"b\n")]

theorem spellings_agree_crowded :
    (∀ s, crowded ≠ .text s) ∧ (∀ n : Number, Json.Spelled n.text) ∧
    Alike (inline crowded).open? (⟨Header.chat.name, .text crowded.render⟩ : Packet).open? ∧
    ChatMessage.Form crowded ⟨"", "a\"b\n", "12:30"⟩ := by
  have hagree := spellings_agree crowded nofun Number.text Json.spelled_text
  rw [quoted, Json.compact_text] at hagree
  exact ⟨nofun, Json.spelled_text, hagree.1, (hagree.2 _).1 rfl⟩

end Spellings

end Packet
end VoiceRelay
