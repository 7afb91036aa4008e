import VoiceRelay.Json.Value

/-!
# Reading a type from JSON events

A `Decoder` reads one value of a type from the front of a list of events. An object is read member
by member: a known key once, with the decoder of its field; an unknown key is skipped. A fixed
number of fields may also be written as an array, in order.

**Design.** A decoder carries the proof that it uses up at least one event, so that reading a list
of members or items is recursion on the events left.

**Results.**

- `skipFrom_length`: skipping a value uses up at least one event.
- `members_eq`, `items_eq`: one member, or one item, and what comes after it.
-/

namespace VoiceRelay
namespace Json

/-- Reads one value of a type from the front of some events. -/
structure Decoder (α : Type) where
  run : List Event → Except Problem (α × List Event)
  shrinks : ∀ {es : List Event} {a : α} {rest : List Event},
    run es = .ok (a, rest) → rest.length < es.length

namespace Decoder

section Scalars

/-- Reads a string. -/
def runText : List Event → Except Problem (String × List Event)
  | .string (.ok s) :: es => .ok (s, es)
  | es => .error (wrongKind es)

/-- Reads a string. -/
def text : Decoder String where
  run := runText
  shrinks := by
    intro es a rest h
    unfold runText at h
    split at h
    · simp only [Except.ok.injEq, Prod.mk.injEq] at h
      simp [h.2]
    · simp at h

/-- Reads any value that opens at most `limit` brackets inside each other. -/
def value (r : Repeats) (limit : Nat) : Decoder Value where
  run := build r limit []
  shrinks := build_length

/-- Changes what is read. -/
def map {α β : Type} (f : α → β) (d : Decoder α) : Decoder β where
  run es := (d.run es).map (fun (a, rest) => (f a, rest))
  shrinks := by
    intro es b rest h
    cases hd : d.run es with
    | error p => simp [hd, Except.map] at h
    | ok ar =>
      simp only [hd, Except.map, Except.ok.injEq, Prod.mk.injEq] at h
      exact d.shrinks (by rw [hd, ← h.2])

end Scalars

section Skipping

/-- Skips a value `depth` brackets deep; only the grammar counts. -/
def skipFrom (depth : Nat) : List Event → Except Problem (List Event)
  | [] => .error .truncated
  | .fault p :: _ => .error p
  | .noKey _ :: _ => .error .malformed
  | .word _ :: es | .number _ :: es | .string _ :: es =>
    if depth = 0 then .ok es else skipFrom depth es
  | .openArray :: es | .openObject :: es => skipFrom (depth + 1) es
  | .closeArray :: es | .closeObject :: es =>
    if depth ≤ 1 then .ok es else skipFrom (depth - 1) es
  | .comma :: es | .colon :: es | .key _ :: es => skipFrom depth es

theorem skipFrom_length {depth : Nat} {es rest : List Event}
    (h : skipFrom depth es = .ok rest) : rest.length < es.length := by
  fun_induction skipFrom depth es with
  | case1 | case2 | case3 => simp at h
  | case4 | case6 | case8 | case12 | case14 =>
    simp only [Except.ok.injEq] at h
    simp [h]
  | case5 | case7 | case9 | case10 | case11 | case13 | case15 | case16 | case17 | case18 =>
    rename_i ih
    exact Nat.lt_succ_of_lt (ih h)

end Skipping

section Members

/-- The events after a colon. -/
def afterColon : List Event → Except Problem (List Event)
  | .colon :: es => .ok es
  | .fault p :: _ => .error p
  | [] => .error .truncated
  | _ => .error .malformed

theorem afterColon_length {es rest : List Event} (h : afterColon es = .ok rest) :
    rest.length < es.length := by
  unfold afterColon at h
  split at h <;> simp_all

/-- Reads the members of an object up to its closing bracket. `field` gives the decoder of a
known key; `seen` holds what was read before, newest first; a known key may come once. -/
def members {φ : Type} (field : String → Option (Decoder φ)) (seen : List (String × φ)) :
    List Event → Except Problem (List (String × φ) × List Event)
  | [] => .error .truncated
  | .closeObject :: es => .ok (seen, es)
  | .comma :: es => members field seen es
  | .fault p :: _ | .key (.error p) :: _ => .error p
  | .key (.ok k) :: es =>
    match field k with
    | some d =>
      if seen.any (fun s => s.1 == k) then .error .mismatched
      else
        match _hc : afterColon es with
        | .error p => .error p
        | .ok es' =>
          match _hd : d.run es' with
          | .error p => .error p
          | .ok (a, rest) => members field ((k, a) :: seen) rest
    | none =>
      match _hc : afterColon es with
      | .error p => .error p
      | .ok es' =>
        match _hs : skipFrom 0 es' with
        | .error p => .error p
        | .ok rest => members field seen rest
  | _ => .error .malformed
  termination_by es => es.length
  decreasing_by
    all_goals simp only [List.length_cons]
    · omega
    · have := afterColon_length _hc
      have := d.shrinks _hd
      omega
    · have := afterColon_length _hc
      have := skipFrom_length _hs
      omega

/-- One member of an object: read with the decoder of its field if its key is known, else skipped. -/
theorem members_eq {φ : Type} {field : String → Option (Decoder φ)} (seen : List (String × φ))
    (k : String) (es : List Event) :
    members field seen (.key (.ok k) :: .colon :: es) =
      match field k with
      | some d =>
        if seen.any (fun s => s.1 == k) then .error .mismatched
        else
          match d.run es with
          | .error p => .error p
          | .ok (a, rest) => members field ((k, a) :: seen) rest
      | none =>
        match skipFrom 0 es with
        | .error p => .error p
        | .ok rest => members field seen rest := by
  rw [members]
  simp only [afterColon]
  cases field k with
  | none =>
    dsimp only
    split <;> next hs => rw [hs]
  | some d =>
    dsimp only
    split
    · rfl
    · split <;> next hd => rw [hd]

/-- A known member that comes for the first time is read with the decoder of its field. -/
theorem members_known {φ : Type} {field : String → Option (Decoder φ)} {seen : List (String × φ)}
    {k : String} {d : Decoder φ} {a : φ} {es rest : List Event} (hk : field k = some d)
    (hnew : seen.any (fun s => s.1 == k) = false) (hd : d.run es = .ok (a, rest)) :
    members field seen (.key (.ok k) :: .colon :: es) = members field ((k, a) :: seen) rest := by
  rw [members_eq, hk]
  simp only [hnew, Bool.false_eq_true, if_false, hd]

theorem members_length {φ : Type} {field : String → Option (Decoder φ)}
    {seen out : List (String × φ)} {es rest : List Event}
    (h : members field seen es = .ok (out, rest)) : rest.length < es.length := by
  fun_induction members field seen es with
  | case2 =>
    simp only [Except.ok.injEq, Prod.mk.injEq] at h
    simp [h.2]
  | case3 _ _ ih => exact Nat.lt_succ_of_lt (ih h)
  | case9 _ _ _ _ _ _ _ hc _ _ hd ih =>
    have := ih h
    have := afterColon_length hc
    have := Decoder.shrinks _ hd
    simp only [List.length_cons]
    omega
  | case12 _ _ _ _ _ hc _ hs ih =>
    have := ih h
    have := afterColon_length hc
    have := skipFrom_length hs
    simp only [List.length_cons]
    omega
  | case1 | case4 | case5 | case6 | case7 | case8 | case10 | case11 | case13 => simp at h

end Members

section Items

/-- Drops the comma in front of an item. -/
def dropComma : List Event → List Event
  | .comma :: es => es
  | es => es

theorem dropComma_length (es : List Event) : (dropComma es).length ≤ es.length := by
  unfold dropComma
  split <;> simp

/-- The events after the closing bracket of an array, if it comes next. -/
def closed? : List Event → Option (List Event)
  | .closeArray :: es => some es
  | _ => none

theorem closed?_length {es rest : List Event} (h : closed? es = some rest) :
    rest.length < es.length := by
  unfold closed? at h
  split at h <;> simp_all

/-- Reads items up to the closing bracket of their array. -/
def items {α : Type} (d : Decoder α) (seen : List α) (es : List Event) :
    Except Problem (List α × List Event) :=
  match closed? es with
  | some rest => .ok (seen.reverse, rest)
  | none =>
    match _hd : d.run (dropComma es) with
    | .error p => .error p
    | .ok (a, rest) => items d (a :: seen) rest
  termination_by es.length
  decreasing_by
    have := dropComma_length es
    have := d.shrinks _hd
    omega

/-- One item is read, or the array is at its end. -/
theorem items_eq {α : Type} (d : Decoder α) (seen : List α) (es : List Event) :
    items d seen es =
      match closed? es with
      | some rest => .ok (seen.reverse, rest)
      | none =>
        match d.run (dropComma es) with
        | .error p => .error p
        | .ok (a, rest) => items d (a :: seen) rest := by
  rw [items]
  split
  · rfl
  · split <;> next hd => simp only [hd]

theorem items_length {α : Type} {d : Decoder α} {seen out : List α} {es rest : List Event}
    (h : items d seen es = .ok (out, rest)) : rest.length < es.length := by
  fun_induction items d seen es with
  | case1 seen es r hr =>
    simp only [Except.ok.injEq, Prod.mk.injEq] at h
    rw [← h.2]
    exact closed?_length hr
  | case2 => simp at h
  | case3 seen es _ a r hd ih =>
    have := ih h
    have := d.shrinks hd
    have := dropComma_length es
    omega

/-- Reads an array of any length. -/
def runList {α : Type} (d : Decoder α) : List Event → Except Problem (List α × List Event)
  | .openArray :: es => items d [] es
  | es => .error (wrongKind es)

/-- Reads an array of any length. -/
def list {α : Type} (d : Decoder α) : Decoder (List α) where
  run := runList d
  shrinks := by
    intro es a rest h
    unfold runList at h
    split at h
    · exact Nat.lt_succ_of_lt (items_length h)
    · simp at h

/-- What stands where an array should close. -/
def notClosed : List Event → Problem
  | [] => .truncated
  | .fault p :: _ => p
  | _ => .malformed

/-- Reads at most as many items as there are decoders, up to the closing bracket. -/
def tuple {φ : Type} (seen : List φ) (ds : List (Decoder φ)) (es : List Event) :
    Except Problem (List φ × List Event) :=
  match closed? es, ds with
  | some rest, _ => .ok (seen.reverse, rest)
  | none, [] => .error (notClosed es)
  | none, d :: ds =>
    match d.run (dropComma es) with
    | .error p => .error p
    | .ok (a, rest) => tuple (a :: seen) ds rest

theorem tuple_length {φ : Type} {ds : List (Decoder φ)} {seen out : List φ}
    {es rest : List Event} (h : tuple seen ds es = .ok (out, rest)) : rest.length < es.length := by
  fun_induction tuple seen ds es with
  | case1 _ _ _ r hr =>
    simp only [Except.ok.injEq, Prod.mk.injEq] at h
    rw [← h.2]
    exact closed?_length hr
  | case2 => simp at h
  | case3 => simp at h
  | case4 seen es _ _ _ _ _ hd ih =>
    have := ih h
    have := Decoder.shrinks _ hd
    have := dropComma_length es
    omega

end Items

section Structures

/-- Reads a value with named fields: from an object, or from an array of the fields in order. -/
def runStructure {φ α : Type} (order : List (String × Decoder φ))
    (ofMembers : List (String × φ) → Except Problem α)
    (ofItems : List φ → Except Problem α) : List Event → Except Problem (α × List Event)
  | .openObject :: es =>
    match members (fun k => order.lookup k) [] es with
    | .error p => .error p
    | .ok (read, rest) => (ofMembers read).map (·, rest)
  | .openArray :: es =>
    match tuple [] (order.map (·.2)) es with
    | .error p => .error p
    | .ok (read, rest) => (ofItems read).map (·, rest)
  | es => .error (wrongKind es)

/-- Reads a value with named fields: from an object, or from an array of the fields in order. -/
def structured {φ α : Type} (order : List (String × Decoder φ))
    (ofMembers : List (String × φ) → Except Problem α)
    (ofItems : List φ → Except Problem α) : Decoder α where
  run := runStructure order ofMembers ofItems
  shrinks := by
    intro es a rest h
    unfold runStructure at h
    split at h
    · split at h
      · simp at h
      · next read r hr =>
        have := members_length hr
        cases ho : ofMembers read with
        | error p => simp [ho, Except.map] at h
        | ok x =>
          simp only [ho, Except.map, Except.ok.injEq, Prod.mk.injEq] at h
          rw [← h.2]
          exact Nat.lt_succ_of_lt this
    · split at h
      · simp at h
      · next read r hr =>
        have := tuple_length hr
        cases ho : ofItems read with
        | error p => simp [ho, Except.map] at h
        | ok x =>
          simp only [ho, Except.map, Except.ok.injEq, Prod.mk.injEq] at h
          rw [← h.2]
          exact Nat.lt_succ_of_lt this
    · simp at h

end Structures

/-- Reads a whole text: one value and nothing after it. -/
def readAll {α : Type} (d : Decoder α) (text : String) : Except Problem α :=
  match d.run (scan text) with
  | .error p => .error p
  | .ok (a, []) => .ok a
  | .ok (_, .fault p :: _) => .error p
  | .ok _ => .error .malformed

end Decoder
end Json
end VoiceRelay
