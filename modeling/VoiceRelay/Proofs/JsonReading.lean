import VoiceRelay.Json.Decoder
import VoiceRelay.Proofs.JsonText
import Mathlib.Data.List.Forall2
import Mathlib.Data.List.Nodup

/-!
# Reading back what was written

A decoder that is given the events of a value reads that value and leaves what comes after it. This
holds of reading any plain value, and it is passed on from the parts of an array or an object to the
whole.

**Design.** `Decoder.Reads` says what a decoder makes of some events, whatever follows them. Arrays
and objects are read part by part; a part begins with neither a comma nor a closing bracket
(`Opens`), so where one ends is never in doubt.

**Results.**

- `build_events`, `reads_value`: a plain value is read back.
- `reads_list`, `reads_structured`: so are lists and structures whose parts are.
-/

namespace VoiceRelay
namespace Json

section Defs

/-- How reading goes on after a whole value. -/
def resume (r : Repeats) (limit : Nat) (opened : List Frame) (v : Value) (rest : List Event) :
    Except Problem (Value × List Event) :=
  match settle r v opened with
  | .inl v => .ok (v, rest)
  | .inr fs => build r limit fs rest

namespace Decoder

variable {α φ : Type}

/-- Of these events the decoder makes this value, whatever follows. -/
def Reads (d : Decoder α) (es : List Event) (a : α) : Prop :=
  ∀ rest, d.run (es ++ rest) = .ok (a, rest)

/-- Some events that are not taken for the end of an array or a comma. -/
def Opens (es : List Event) : Prop :=
  ∀ rest, closed? (es ++ rest) = none ∧ dropComma (es ++ rest) = es ++ rest

/-- The events of a member, of which the decoder of its field makes its value. -/
def Spells (field : String → Option (Decoder φ)) (es : List Event) (m : String × φ) : Prop :=
  ∃ d value, field m.1 = some d ∧ d.Reads value m.2 ∧ es = .key (.ok m.1) :: .colon :: value

end Decoder

end Defs

section Building

variable {r : Repeats} {limit n : Nat} {v : Value}

theorem assign_of_not_mem {key : String} {members : List (String × Value)}
    (h : key ∉ members.map Prod.fst) (v : Value) :
    assign key v members = members ++ [(key, v)] := by
  induction members with
  | nil => rfl
  | cons m members ih =>
    rw [List.map_cons, List.mem_cons, not_or] at h
    rw [assign, if_neg (Ne.symm h.1), ih h.2]
    rfl

/-- A member with a new name comes last. -/
theorem add_of_new {key : String} {members : List (String × Value)}
    (h : r = .replacing → key ∉ members.map Prod.fst) (v : Value) :
    r.add key v members = members ++ [(key, v)] := by
  cases r with
  | kept => rfl
  | replacing => exact assign_of_not_mem (h rfl) v

/-- The items of an array are read one after the other. -/
theorem build_items {items : List Value} {opened : List Frame} (done : List Value)
    (hitems : ∀ v ∈ items, ∀ (f : Frame) (rest : List Event),
      build r limit (f :: opened) (v.events ++ rest) = build r limit (f.put r v :: opened) rest)
    (rest : List Event) :
    build r limit (.array done :: opened) (separated (itemEvents items) ++ .closeArray :: rest) =
      resume r limit opened (.array (done.reverse ++ items)) rest := by
  induction items generalizing done with
  | nil =>
    rw [List.append_nil]
    rfl
  | cons v items ih =>
    have hrest := ih (v :: done) fun w hw => hitems w (List.mem_cons_of_mem v hw)
    rw [List.reverse_cons, List.append_assoc] at hrest
    cases items with
    | nil =>
      rw [itemEvents, itemEvents, separated, hitems v List.mem_cons_self]
      exact hrest
    | cons w items =>
      rw [itemEvents, itemEvents, separated_cons_cons, List.append_assoc,
        hitems v List.mem_cons_self]
      exact hrest

/-- The members of an object are read one after the other. -/
theorem build_members {members : List (String × Value)} {opened : List Frame}
    (seen : List (String × Value)) (key : String)
    (hmembers : ∀ m ∈ members, ∀ (f : Frame) (rest : List Event),
      build r limit (f :: opened) (m.2.events ++ rest) = build r limit (f.put r m.2 :: opened) rest)
    (hnew : r = .replacing → ((seen ++ members).map Prod.fst).Nodup) (rest : List Event) :
    build r limit (.object seen key :: opened)
        (separated (memberEvents members) ++ .closeObject :: rest) =
      resume r limit opened (.object (seen ++ members)) rest := by
  induction members generalizing seen key with
  | nil =>
    rw [List.append_nil]
    rfl
  | cons m members ih =>
    obtain ⟨k, v⟩ := m
    have hadd : r.add k v seen = seen ++ [(k, v)] := by
      refine add_of_new (fun hr => ?_) v
      have hnodup := hnew hr
      rw [List.map_append, List.nodup_append] at hnodup
      exact fun hk => hnodup.2.2 k hk k List.mem_cons_self rfl
    have hrest := ih (seen ++ [(k, v)]) k (fun m hm => hmembers m (List.mem_cons_of_mem _ hm))
      (by simpa using hnew)
    rw [List.append_assoc, ← hadd] at hrest
    have hmember := hmembers (k, v) List.mem_cons_self (.object seen k)
    cases members with
    | nil =>
      rw [memberEvents, memberEvents, separated]
      exact (hmember _).trans hrest
    | cons w members =>
      rw [memberEvents, memberEvents, separated_cons_cons, List.append_assoc]
      exact (hmember _).trans hrest

/-- Where one more bracket may be opened, it leaves room for what is inside. -/
theorem room_inside {opened : List Frame} (hn : opened.length + (n + 1) ≤ limit) :
    ¬ limit ≤ opened.length ∧ ∀ f : Frame, (f :: opened).length + n ≤ limit := by
  refine ⟨by omega, fun f => ?_⟩
  rw [List.length_cons]
  omega

/-- **A plain value is read back**, and reading goes on behind it. -/
theorem build_events (h : v.Plain r n) {opened : List Frame} (hn : opened.length + n ≤ limit)
    (rest : List Event) :
    build r limit opened (v.events ++ rest) = resume r limit opened v rest := by
  induction h generalizing opened rest with
  | null n | text n s => rfl
  | bool n b => cases b <;> rfl
  | @array n items _ ih =>
    obtain ⟨hopen, hinner⟩ := room_inside hn
    rw [Value.events, List.cons_append, List.append_assoc, build, if_neg hopen]
    exact build_items [] (fun v hv f rest => ih v hv (hinner f) rest) rest
  | @object n members _ hnew ih =>
    obtain ⟨hopen, hinner⟩ := room_inside hn
    rw [Value.events, List.cons_append, List.append_assoc, build, if_neg hopen]
    exact build_members [] "" (fun m hm f rest => ih m hm (hinner f) rest) hnew rest

end Building

namespace Decoder

variable {α β φ : Type} {d : Decoder α} {es : List Event} {a : α}

section Parts

theorem reads_text (s : String) : text.Reads [.string (.ok s)] s := fun _ => rfl

theorem Reads.map (h : d.Reads es a) (f : α → β) : (d.map f).Reads es (f a) := by
  intro rest
  simp only [Decoder.map, h rest]
  rfl

/-- **A plain value is read back.** -/
theorem reads_value {r : Repeats} {limit n : Nat} {v : Value} (h : v.Plain r n) (hn : n ≤ limit) :
    (Decoder.value r limit).Reads v.events v := by
  intro rest
  exact build_events h (by simpa using hn) rest

theorem opens_events (v : Value) : Opens v.events := by
  intro rest
  cases v with
  | bool b => cases b <;> exact ⟨rfl, rfl⟩
  | null | number _ | text _ | array _ | object _ => exact ⟨rfl, rfl⟩

end Parts

section Items

variable {ess : List (List Event)} {as : List α}

theorem separated_cons_append (es : List Event) (ess : List (List Event)) :
    ∃ tail, separated (es :: ess) = es ++ tail := by
  cases ess with
  | nil => exact ⟨[], (List.append_nil es).symm⟩
  | cons es' ess => exact ⟨_, separated_cons_cons es es' ess⟩

theorem items_reads (h : d.Reads es a) (hopens : Opens es) (seen : List α) (rest : List Event) :
    items d seen (es ++ rest) = items d (a :: seen) rest := by
  obtain ⟨hclosed, hdrop⟩ := hopens rest
  rw [items_eq, hclosed, hdrop]
  simp only [h rest]

/-- A comma before an item changes nothing. -/
theorem items_comma (hopens : Opens es) (seen : List α) (rest : List Event) :
    items d seen (.comma :: (es ++ rest)) = items d seen (es ++ rest) := by
  obtain ⟨hclosed, hdrop⟩ := hopens rest
  rw [items_eq, items_eq d seen (es ++ rest), hclosed, hdrop]
  rfl

/-- Items are read one after the other. -/
theorem items_separated (h : List.Forall₂ d.Reads ess as) (hopens : ∀ es ∈ ess, Opens es)
    (seen : List α) (rest : List Event) :
    items d seen (separated ess ++ .closeArray :: rest) = .ok (seen.reverse ++ as, rest) := by
  induction h generalizing seen with
  | nil =>
    rw [List.append_nil, items_eq]
    rfl
  | @cons es a ess as hread _ ih =>
    have hitem := items_reads hread (hopens es List.mem_cons_self) seen
    have hrest := ih (fun es hes => hopens es (List.mem_cons_of_mem _ hes)) (a :: seen)
    rw [List.reverse_cons, List.append_assoc] at hrest
    cases ess with
    | nil =>
      rw [separated, hitem]
      exact hrest
    | cons es' ess =>
      obtain ⟨tail, htail⟩ := separated_cons_append es' ess
      have hopens' : Opens es' := hopens es' (List.mem_cons_of_mem _ List.mem_cons_self)
      rw [separated_cons_cons, List.append_assoc, hitem, List.cons_append, htail, List.append_assoc,
        items_comma hopens', ← List.append_assoc, ← htail]
      exact hrest

/-- **A list is read if its items are.** -/
theorem reads_list (h : List.Forall₂ d.Reads ess as) (hopens : ∀ es ∈ ess, Opens es) :
    (list d).Reads (.openArray :: (separated ess ++ [.closeArray])) as := by
  intro rest
  rw [List.cons_append, List.append_assoc]
  exact items_separated h hopens [] rest

/-- **A list is read if each of its items is read from how it is written.** -/
theorem reads_array {write : α → Value} (h : ∀ a, d.Reads (write a).events a) (as : List α) :
    (list d).Reads (Value.array (as.map write)).events as := by
  have hitems : List.Forall₂ d.Reads (as.map fun a => (write a).events) as :=
    List.forall₂_map_left_iff.2 (List.forall₂_same.2 fun a _ => h a)
  rw [Value.events, itemEvents_eq, List.map_map]
  refine reads_list hitems fun es hes => ?_
  obtain ⟨a, -, rfl⟩ := List.mem_map.1 hes
  exact opens_events (write a)

end Items

section Members

variable {field : String → Option (Decoder φ)} {d' : Decoder φ} {a' : φ}
  {ess : List (List Event)} {ms : List (String × φ)}

theorem spells {k : String} (hk : field k = some d') (h : d'.Reads es a') :
    Spells field (.key (.ok k) :: .colon :: es) (k, a') := ⟨d', es, hk, h, rfl⟩

theorem members_spells {m : String × φ} (h : Spells field es m) {seen : List (String × φ)}
    (hnew : m.1 ∉ seen.map Prod.fst) (rest : List Event) :
    members field seen (es ++ rest) = members field (m :: seen) rest := by
  obtain ⟨d, value, hfield, hread, rfl⟩ := h
  refine members_known hfield ?_ (hread rest)
  rw [List.any_eq_false]
  intro s hs hkey
  exact hnew (List.mem_map.2 ⟨s, hs, eq_of_beq hkey⟩)

/-- Members are read one after the other; the last one comes first. -/
theorem members_separated (h : List.Forall₂ (Spells field) ess ms) (seen : List (String × φ))
    (hnew : ((ms.reverse ++ seen).map Prod.fst).Nodup) (rest : List Event) :
    members field seen (separated ess ++ .closeObject :: rest) =
      .ok (ms.reverse ++ seen, rest) := by
  induction h generalizing seen with
  | nil => exact members.eq_2 field seen rest
  | @cons es m ess ms hspells _ ih =>
    rw [List.reverse_cons, List.append_assoc, List.singleton_append] at hnew ⊢
    have hfirst : m.1 ∉ seen.map Prod.fst := by
      rw [List.map_append, List.map_cons] at hnew
      exact (List.nodup_cons.1 hnew.of_append_right).1
    have hmember := members_spells hspells hfirst
    have hrest := ih (m :: seen) hnew
    cases ess with
    | nil =>
      rw [separated, hmember]
      exact hrest
    | cons es' ess =>
      rw [separated_cons_cons, List.append_assoc, hmember, List.cons_append, members]
      exact hrest

/-- **A structure is read if its members are**, each of a field of its own. -/
theorem reads_structured {order : List (String × Decoder φ)}
    {ofMembers : List (String × φ) → Except Problem α} {ofItems : List φ → Except Problem α}
    (h : List.Forall₂ (Spells fun k => order.lookup k) ess ms) (hnew : (ms.map Prod.fst).Nodup)
    (ha : ofMembers ms.reverse = .ok a) :
    (structured order ofMembers ofItems).Reads
      (.openObject :: (separated ess ++ [.closeObject])) a := by
  intro rest
  have hread := members_separated h [] (by simpa using hnew) rest
  rw [List.append_nil] at hread
  rw [List.cons_append, List.append_assoc]
  simp only [structured, runStructure, List.singleton_append, hread, ha]
  rfl

end Members

/-- A whole text is read if its events are. -/
theorem readAll_of_reads {text : String} (h : d.Reads es a) (hs : scan text = es) :
    d.readAll text = .ok a := by
  have hall := h []
  rw [List.append_nil] at hall
  simp only [readAll, hs, hall]

end Decoder

end Json
end VoiceRelay
