import VoiceRelay.Hub.Basic
import Mathlib.Data.List.Nodup

/-!
# What the history of the hub says of one registration

A registration is open from the deed that takes it into the set to the deed that closes it. The
history tells what was handed to it, and which envelopes were dispatched while it was open.

**Design.** `Books` relates a set of registrations to a history: the open ones are those in the set,
each was handed what was dispatched while it was open, and nothing follows a text that was not
accepted. The set may still hold registrations that are about to leave; `doomed` names them.

**Results.**

- `Books.join`, `Books.leave`, `Books.hand`: what keeps the books right.
- `due_append`: over a stretch of the history during which a registration is open, every envelope
  dispatched in the stretch is due to it.
-/

namespace VoiceRelay

namespace Hub

section Defs

/-- Whether a registration is open: it was registered and not closed since. -/
def isOpen (n : Nat) : List Deed → Bool
  | [] => false
  | .registered m _ :: past => m == n || isOpen n past
  | .closed m :: past => !(m == n) && isOpen n past
  | _ :: past => isOpen n past

/-- The texts handed to a registration, oldest first, each with whether it was accepted. -/
def handedTo (n : Nat) : List Deed → List (String × Bool)
  | [] => []
  | .handed m text ok :: past => handedTo n past ++ if m = n then [(text, ok)] else []
  | _ :: past => handedTo n past

/-- The envelopes dispatched while a registration was open, oldest first. -/
def due (n : Nat) : List Deed → List Envelope
  | [] => []
  | .dispatched e :: past => due n past ++ if isOpen n past then [e] else []
  | _ :: past => due n past

/-- The history fits the set: the numbers in the set are those that are open, and to each number was
handed what was dispatched while it was open, all of it accepted but possibly the last. -/
structure Books (doomed : SubscriberId → Prop) (subs : List Subscriber) (next : Nat)
    (past : List Deed) : Prop where
  serials : (subs.map (·.serial)).Nodup
  born : ∀ s ∈ subs, s.serial < next
  present : ∀ n, isOpen n past = true ↔ ∃ s ∈ subs, s.serial = n
  unborn : ∀ n, next ≤ n → handedTo n past = []
  texts : ∀ n, (handedTo n past).map Prod.fst = (due n past).map Envelope.toJson
  accepted : ∀ n, ∀ x ∈ (handedTo n past).dropLast, x.2 = true
  clean : ∀ s ∈ subs, ¬ doomed s.id → ∀ x ∈ handedTo s.serial past, x.2 = true

end Defs

section Views

variable (n : Nat) (past : List Deed)

@[simp] theorem isOpen_registered (m : Nat) (id : SubscriberId) :
    isOpen n (.registered m id :: past) = (m == n || isOpen n past) := rfl

@[simp] theorem isOpen_closed (m : Nat) :
    isOpen n (.closed m :: past) = (!(m == n) && isOpen n past) := rfl

@[simp] theorem isOpen_handed (m : Nat) (text : String) (ok : Bool) :
    isOpen n (.handed m text ok :: past) = isOpen n past := rfl

@[simp] theorem isOpen_dispatched (e : Envelope) :
    isOpen n (.dispatched e :: past) = isOpen n past := rfl

@[simp] theorem isOpen_counted (size : Nat) :
    isOpen n (.counted size :: past) = isOpen n past := rfl

@[simp] theorem handedTo_registered (m : Nat) (id : SubscriberId) :
    handedTo n (.registered m id :: past) = handedTo n past := rfl

@[simp] theorem handedTo_closed (m : Nat) :
    handedTo n (.closed m :: past) = handedTo n past := rfl

@[simp] theorem handedTo_handed (m : Nat) (text : String) (ok : Bool) :
    handedTo n (.handed m text ok :: past) =
      handedTo n past ++ if m = n then [(text, ok)] else [] := rfl

@[simp] theorem handedTo_dispatched (e : Envelope) :
    handedTo n (.dispatched e :: past) = handedTo n past := rfl

@[simp] theorem handedTo_counted (size : Nat) :
    handedTo n (.counted size :: past) = handedTo n past := rfl

@[simp] theorem due_registered (m : Nat) (id : SubscriberId) :
    due n (.registered m id :: past) = due n past := rfl

@[simp] theorem due_closed (m : Nat) : due n (.closed m :: past) = due n past := rfl

@[simp] theorem due_handed (m : Nat) (text : String) (ok : Bool) :
    due n (.handed m text ok :: past) = due n past := rfl

@[simp] theorem due_dispatched (e : Envelope) :
    due n (.dispatched e :: past) = due n past ++ if isOpen n past then [e] else [] := rfl

@[simp] theorem due_counted (size : Nat) : due n (.counted size :: past) = due n past := rfl

/-- The deeds of handing a text to a set, in front of a history. -/
theorem handedTo_handAll (text : String) (ok : Subscriber → Bool) (subs : List Subscriber) :
    handedTo n ((subs.map fun s => Deed.handed s.serial text (ok s)).reverse ++ past) =
      handedTo n past ++ (subs.filter (·.serial = n)).map fun s => (text, ok s) := by
  induction subs generalizing past with
  | nil => simp
  | cons s subs ih =>
    rw [List.map_cons, List.reverse_cons, List.append_assoc, ih]
    by_cases hs : s.serial = n
    · simp [hs]
    · simp [hs]

theorem isOpen_handAll (text : String) (ok : Subscriber → Bool) (subs : List Subscriber) :
    isOpen n ((subs.map fun s => Deed.handed s.serial text (ok s)).reverse ++ past) =
      isOpen n past := by
  induction subs generalizing past with
  | nil => rfl
  | cons s subs ih =>
    rw [List.map_cons, List.reverse_cons, List.append_assoc, ih]
    rfl

theorem due_handAll (text : String) (ok : Subscriber → Bool) (subs : List Subscriber) :
    due n ((subs.map fun s => Deed.handed s.serial text (ok s)).reverse ++ past) =
      due n past := by
  induction subs generalizing past with
  | nil => rfl
  | cons s subs ih =>
    rw [List.map_cons, List.reverse_cons, List.append_assoc, ih]
    rfl

theorem dispatchedIn_cons (d : Deed) :
    dispatchedIn (d :: past) = dispatchedIn past ++ dispatchedIn [d] := by
  simp [dispatchedIn, List.filterMap_append]

theorem dispatchedIn_append (deeds : List Deed) :
    dispatchedIn (deeds ++ past) = dispatchedIn past ++ dispatchedIn deeds := by
  simp [dispatchedIn, List.filterMap_append]

/-- Over a stretch without a registration of this number at whose end it is open, it was open at the
beginning, and everything dispatched in the stretch is due to it. -/
theorem due_append {n : Nat} {past deeds : List Deed}
    (hnew : ∀ id, Deed.registered n id ∉ deeds) (hopen : isOpen n (deeds ++ past) = true) :
    isOpen n past = true ∧ due n (deeds ++ past) = due n past ++ dispatchedIn deeds := by
  induction deeds with
  | nil => exact ⟨hopen, by simp [dispatchedIn]⟩
  | cons d deeds ih =>
    have hnew' : ∀ id, Deed.registered n id ∉ deeds := fun id h =>
      hnew id (List.mem_cons_of_mem _ h)
    rw [dispatchedIn_cons, List.cons_append]
    rw [List.cons_append] at hopen
    cases d with
    | registered m id =>
      have hm : m ≠ n := by
        rintro rfl
        exact hnew id List.mem_cons_self
      have hrest : isOpen n (deeds ++ past) = true := by simpa [hm] using hopen
      simpa [dispatchedIn] using ih hnew' hrest
    | closed m =>
      have hrest : isOpen n (deeds ++ past) = true := by
        simp only [isOpen_closed, Bool.and_eq_true] at hopen
        exact hopen.2
      simpa [dispatchedIn] using ih hnew' hrest
    | dispatched e =>
      have hrest : isOpen n (deeds ++ past) = true := by simpa using hopen
      obtain ⟨hpast, hdue⟩ := ih hnew' hrest
      refine ⟨hpast, ?_⟩
      simp [hrest, hdue, dispatchedIn]
    | handed m text ok =>
      have hrest : isOpen n (deeds ++ past) = true := by simpa using hopen
      simpa [dispatchedIn] using ih hnew' hrest
    | counted size =>
      have hrest : isOpen n (deeds ++ past) = true := by simpa using hopen
      simpa [dispatchedIn] using ih hnew' hrest

end Views

namespace Books

section Keeping

variable {doomed : SubscriberId → Prop} {subs : List Subscriber} {next : Nat} {past : List Deed}

theorem nil : Books doomed [] 0 [] where
  serials := List.nodup_nil
  born s h := by simp at h
  present n := by simp [isOpen]
  unborn n _ := rfl
  texts n := rfl
  accepted n x h := by simp [handedTo] at h
  clean s h := by simp at h

/-- Fewer registrations may be about to leave if those that are not were not in the set. -/
theorem weaken (h : Books doomed subs next past) {doomed' : SubscriberId → Prop}
    (hd : ∀ s ∈ subs, doomed s.id → doomed' s.id) : Books doomed' subs next past :=
  { h with clean := fun s hs hnot => h.clean s hs fun hdoomed => hnot (hd s hs hdoomed) }

/-- The number of a registration in the set is its own. -/
theorem eq_of_serial (h : Books doomed subs next past) {s t : Subscriber} (hs : s ∈ subs)
    (ht : t ∈ subs) (heq : s.serial = t.serial) : s = t :=
  List.inj_on_of_nodup_map h.serials hs ht heq

/-- The registrations of one number in the set are one at most. -/
theorem filter_of_mem (h : Books doomed subs next past) {s : Subscriber} (hs : s ∈ subs) :
    subs.filter (·.serial = s.serial) = [s] := by
  have hnodup : (subs.filter (·.serial = s.serial)).Nodup := h.serials.of_map.filter _
  have hperm : (subs.filter (·.serial = s.serial)).Perm [s] := by
    rw [List.perm_ext_iff_of_nodup hnodup (List.nodup_singleton s)]
    intro t
    rw [List.mem_filter, List.mem_singleton, decide_eq_true_eq]
    constructor
    · rintro ⟨ht, heq⟩
      exact h.eq_of_serial ht hs heq
    · rintro rfl
      exact ⟨hs, rfl⟩
  exact List.perm_singleton.1 hperm

/-- A number is open and stands for one registration in the set, or it is not open and stands for
none. -/
theorem filter_serial (h : Books doomed subs next past) (n : Nat) :
    (∃ s, subs.filter (·.serial = n) = [s] ∧ isOpen n past = true) ∨
      (subs.filter (·.serial = n) = [] ∧ isOpen n past = false) := by
  by_cases hopen : isOpen n past = true
  · obtain ⟨s, hs, rfl⟩ := (h.present n).1 hopen
    exact Or.inl ⟨s, h.filter_of_mem hs, hopen⟩
  · refine Or.inr ⟨?_, by simpa using hopen⟩
    rw [List.filter_eq_nil_iff]
    intro s hs hn
    exact hopen ((h.present n).2 ⟨s, hs, by simpa using hn⟩)

theorem counted (h : Books doomed subs next past) (size : Nat) :
    Books doomed subs next (.counted size :: past) where
  serials := h.serials
  born := h.born
  present n := by simpa using h.present n
  unborn n hn := by simpa using h.unborn n hn
  texts n := by simpa using h.texts n
  accepted n := by simpa using h.accepted n
  clean s hs hd := by simpa using h.clean s hs hd

/-- A new registration has a number that no other had. -/
theorem join (h : Books doomed subs next past) (id : SubscriberId) (sink : Sink)
    (attempts : Nat) :
    Books doomed (subs ++ [⟨id, next, sink, attempts⟩]) (next + 1)
      (.registered next id :: past) where
  serials := by
    rw [List.map_append, List.nodup_append]
    refine ⟨h.serials, by simp, ?_⟩
    intro n hn m hm heq
    obtain ⟨s, hs, rfl⟩ := List.mem_map.1 hn
    have hlt := h.born s hs
    simp only [List.map_cons, List.map_nil, List.mem_singleton] at hm
    omega
  born s hs := by
    rcases List.mem_append.1 hs with hs | hs
    · exact Nat.lt_succ_of_lt (h.born s hs)
    · rw [List.mem_singleton.1 hs]
      exact Nat.lt_succ_self next
  present n := by
    have hold := h.present n
    simp only [isOpen_registered, Bool.or_eq_true, beq_iff_eq, List.mem_append, List.mem_singleton]
    constructor
    · rintro (rfl | hopen)
      · exact ⟨_, Or.inr rfl, rfl⟩
      · obtain ⟨s, hs, hn⟩ := hold.1 hopen
        exact ⟨s, Or.inl hs, hn⟩
    · rintro ⟨s, hs | rfl, hn⟩
      · exact Or.inr (hold.2 ⟨s, hs, hn⟩)
      · exact Or.inl hn
  unborn n hn := by
    simpa using h.unborn n (by omega)
  texts n := by simpa using h.texts n
  accepted n := by simpa using h.accepted n
  clean s hs hd := by
    rcases List.mem_append.1 hs with hs | hs
    · simpa using h.clean s hs hd
    · rw [List.mem_singleton.1 hs]
      simp [h.unborn next (Nat.le_refl next)]

/-- A registration leaves the set and is closed. -/
theorem leave (h : Books doomed subs next past) (n : Nat) :
    Books doomed (subs.filter (·.serial ≠ n)) next (.closed n :: past) where
  serials := h.serials.sublist (List.filter_sublist.map _)
  born s hs := h.born s (List.mem_of_mem_filter hs)
  present m := by
    have hold := h.present m
    simp only [isOpen_closed, Bool.and_eq_true, Bool.not_eq_true', beq_eq_false_iff_ne, List.mem_filter,
      decide_eq_true_eq]
    constructor
    · rintro ⟨hne, hopen⟩
      obtain ⟨s, hs, rfl⟩ := hold.1 hopen
      exact ⟨s, ⟨hs, fun h => hne h.symm⟩, rfl⟩
    · rintro ⟨s, ⟨hs, hne⟩, rfl⟩
      exact ⟨fun h => hne h.symm, hold.2 ⟨s, hs, rfl⟩⟩
  unborn m hm := by simpa using h.unborn m hm
  texts m := by simpa using h.texts m
  accepted m := by simpa using h.accepted m
  clean s hs hd := by
    simpa using h.clean s (List.mem_of_mem_filter hs) hd

/-- Every registration in the set is handed the text of an envelope. Those that do not accept it are
about to leave. -/
theorem hand (h : Books (fun _ => False) subs next past) (e : Envelope) (ok : Subscriber → Bool) :
    Books (fun id => ∃ s ∈ subs, ok s = false ∧ s.id = id)
      (subs.map fun s => { s with attempts := s.attempts + 1 }) next
      ((subs.map fun s => Deed.handed s.serial e.toJson (ok s)).reverse ++ .dispatched e :: past)
    where
  serials := by
    rw [List.map_map]
    exact h.serials
  born t ht := by
    obtain ⟨s, hs, rfl⟩ := List.mem_map.1 ht
    exact h.born s hs
  present n := by
    rw [isOpen_handAll, isOpen_dispatched, h.present n]
    simp
  unborn n hn := by
    rw [handedTo_handAll, handedTo_dispatched, h.unborn n hn, List.nil_append, List.map_eq_nil_iff,
      List.filter_eq_nil_iff]
    intro s hs
    have hlt := h.born s hs
    simp only [decide_eq_true_eq]
    omega
  texts n := by
    rw [handedTo_handAll, due_handAll, handedTo_dispatched, due_dispatched, List.map_append,
      List.map_append, h.texts n]
    congr 1
    rcases h.filter_serial n with ⟨s, hs, hopen⟩ | ⟨hnil, hopen⟩
    · simp [hs, hopen]
    · simp [hnil, hopen]
  accepted n x hx := by
    rw [handedTo_handAll, handedTo_dispatched] at hx
    rcases h.filter_serial n with ⟨s, hs, hopen⟩ | ⟨hnil, hopen⟩
    · rw [hs] at hx
      obtain ⟨t, ht, rfl⟩ := (h.present n).1 hopen
      exact h.clean t ht id x (by simpa using hx)
    · rw [hnil] at hx
      exact h.accepted n x (by simpa using hx)
  clean t ht hd x hx := by
    obtain ⟨s, hs, rfl⟩ := List.mem_map.1 ht
    rw [handedTo_handAll, handedTo_dispatched, h.filter_of_mem hs] at hx
    rcases List.mem_append.1 hx with hx | hx
    · exact h.clean s hs id x hx
    · have hok : ok s = true := by
        by_contra hno
        exact hd ⟨s, hs, by simpa using hno, rfl⟩
      rw [List.mem_singleton.1 hx]
      exact hok

end Keeping

end Books

end Hub

end VoiceRelay
