import VoiceRelay.Journal.Writer
import VoiceRelay.Proofs.Utf8Text

/-!
# Records stay whole

Any number of callers write to one journal, each in as many pieces as the system takes, and between two
records somebody may open the file once more or empty it. What is in the file is always what was there
first, or nothing if it was emptied since, and then one whole record for each call that got the lock, in
the order of asking; only the last record may still be short, by what its caller has yet to write.

**Design.** `Whole` is what every move keeps: the content in terms of the calls that got the lock.
`Extends` compares two moments between which the file was not emptied: whoever asked meanwhile stands at
the end of the line, and what was in the file is still in front. A run is followed by its moves, and cut
at the last of them that empties the file.

**Results.**

- `run_whole`: the content after every run.
- `run_extends`: what a run adds as long as nobody empties the file.
- `run_finish`: everybody who asked can be served.
- `splitOn_records`: records are cut apart again at the line feeds.
- `openAppend_contentAt`: opening a file changes no content.
- `records_stay_whole`: all of this for every journal.
-/

namespace VoiceRelay

namespace Disk.Tree

section Opening

/-- A folder or an empty file that is put where nothing stood changes no content. -/
theorem contentAt_put_of_none {d : Tree} {p : Place} {n : Node} (h : d.get p = none)
    (hn : n = .folder ∨ n = .file []) (q : Place) : (d.put p n).contentAt q = d.contentAt q := by
  have hp : p ≠ [] := by
    rintro rfl
    exact absurd h nofun
  by_cases hq : q = p
  · subst hq
    unfold contentAt
    rw [get_put d n hp, h]
    rcases hn with rfl | rfl <;> rfl
  · unfold contentAt
    rw [get_put_of_ne d n hq]

theorem makeFolders_contentAt {d d' : Tree} {p p' : Place} {ns : List String}
    (h : d.makeFolders p ns = .ok (d', p')) (q : Place) : d'.contentAt q = d.contentAt q := by
  induction ns generalizing d p with
  | nil =>
    cases h
    rfl
  | cons name ns ih =>
    unfold makeFolders at h
    split at h
    · exact ih h
    · split at h
      · cases h
      · split at h
        · next hnone => exact (ih h).trans (contentAt_put_of_none hnone (Or.inl rfl) q)
        · exact ih h
        · cases h

/-- **Opening a file for appending changes no content**, whether the file was there or not. -/
theorem openAppend_contentAt {d d' : Tree} {base p : Place} {path : String}
    (h : d.openAppend base path = .ok (d', p)) (q : Place) : d'.contentAt q = d.contentAt q := by
  unfold openAppend at h
  by_cases hempty : path.isEmpty = true
  · rw [if_pos hempty] at h
    cases h
  by_cases hbad : isBad path = true
  · rw [if_neg hempty, if_pos hbad] at h
    cases h
  rw [if_neg hempty, if_neg hbad] at h
  cases hfolders : d.makeFolders (start base path) (names path).dropLast with
  | error f =>
    rw [hfolders] at h
    cases h
  | ok made =>
    rw [hfolders] at h
    refine Eq.trans ?_ (makeFolders_contentAt hfolders q)
    simp only [bind, Except.bind, pure, Except.pure, throw, throwThe, MonadExceptOf.throw] at h
    -- Of all the ways through the rest, one finds the file and one makes it; the others end in a fault.
    split at h
    · cases h
    split at h
    · cases h
    split at h
    · cases h
    · split at h
      · cases h
      split at h <;> cases h
      rfl
    · next hnone =>
      split at h
      · cases h
      split at h <;> cases h
      exact contentAt_put_of_none hnone (Or.inr rfl) q

end Opening

end Disk.Tree

namespace Journal

section Defs

/-- The records of some calls, one behind the other. -/
def records (as : List Asking) : List UInt8 := as.flatMap fun a => a.call.record

/-- What was asked for in some moves. -/
def askedIn (ms : List Move) : List Asking :=
  ms.filterMap fun
    | .ask a => some a
    | _ => none

/-- The moves by which a caller that is next is served. -/
def serve (a : Asking) : List Move := [.grant, .write a.call.record.length, .release]

namespace Writer

/-- The calls that got the lock, oldest first. -/
def order (w : Writer) : List Asking := w.granted.reverse

/-- Whether a move empties the file. -/
def empties (w : Writer) (m : Move) : Bool := m = .empty && w.holder.isNone

/-- Nobody empties the file on the way. -/
def Keeps (w : Writer) : List Move → Prop
  | [] => True
  | m :: ms => w.empties m = false ∧ (w.step m).Keeps ms

/-- The moves by which everybody who asked is served. -/
def finish (w : Writer) : List Move :=
  (match w.holder with
    | some h => [.write h.left.length, .release]
    | none => []) ++ w.waiting.flatMap serve

/-- The content is what was there first and the records of the calls that got the lock; the caller with
the lock is the last of them, and of its record there is only what it has written. -/
structure Whole (w : Writer) : Prop where
  free : w.holder = none → w.content = w.start ++ records w.order
  held : ∀ h, w.holder = some h → ∃ earlier written, w.order = earlier ++ [h.asking] ∧
    h.asking.call.record = written ++ h.left ∧ w.content = w.start ++ records earlier ++ written

/-- What became of a file that was not emptied, after some calls were asked for. -/
structure Extends (v w : Writer) (asked : List Asking) : Prop where
  start : w.start = v.start
  line : w.order ++ w.waiting = v.order ++ v.waiting ++ asked
  content : v.content <+: w.content

end Writer

end Defs

namespace Writer

section Steps

variable {w : Writer}

theorem records_append (as bs : List Asking) : records (as ++ bs) = records as ++ records bs :=
  List.flatMap_append

theorem Whole.of_free (hfree : w.holder = none) (h : w.content = w.start ++ records w.order) :
    w.Whole where
  free _ := h
  held _ hheld := absurd (hfree.symm.trans hheld) (Option.some_ne_none _).symm

theorem opened_whole (content : List UInt8) : (opened content).Whole :=
  .of_free rfl (List.append_nil content).symm

theorem grant_whole (h : w.Whole) : (w.step .grant).Whole := by
  obtain ⟨start, content, waiting, holder, granted⟩ := w
  rcases holder with _ | holding
  · rcases waiting with _ | ⟨a, rest⟩
    · exact h
    · refine ⟨nofun, ?_⟩
      rintro _ ⟨⟩
      refine ⟨granted.reverse, [], List.reverse_cons, rfl, ?_⟩
      rw [List.append_nil]
      exact h.free rfl
  · exact h

theorem write_whole (h : w.Whole) (count : Nat) : (w.step (.write count)).Whole := by
  obtain ⟨start, content, waiting, holder, granted⟩ := w
  rcases holder with _ | holding
  · exact h
  · obtain ⟨earlier, written, horder, hrecord, hcontent⟩ := h.held holding rfl
    refine ⟨nofun, ?_⟩
    rintro _ ⟨⟩
    refine ⟨earlier, written ++ holding.left.take count, horder, ?_, ?_⟩
    · rw [List.append_assoc, List.take_append_drop]
      exact hrecord
    · rw [← List.append_assoc]
      exact congrArg (· ++ holding.left.take count) hcontent

theorem release_whole (h : w.Whole) : (w.step .release).Whole := by
  obtain ⟨start, content, waiting, holder, granted⟩ := w
  rcases holder with _ | holding
  · exact h
  · by_cases hleft : holding.left.isEmpty = true
    · -- The lock is given back only when the record is complete.
      have hstep : step ⟨start, content, waiting, some holding, granted⟩ .release =
          ⟨start, content, waiting, none, granted⟩ := if_pos hleft
      obtain ⟨earlier, written, horder, hrecord, hcontent⟩ := h.held holding rfl
      rw [List.isEmpty_iff.1 hleft, List.append_nil] at hrecord
      have hall : records granted.reverse = records earlier ++ written := by
        change granted.reverse = _ at horder
        rw [horder, records_append, ← hrecord]
        simp [records]
      rw [hstep]
      refine .of_free rfl (hcontent.trans ?_)
      rw [List.append_assoc, ← hall]
      rfl
    · have hstep : step ⟨start, content, waiting, some holding, granted⟩ .release =
          ⟨start, content, waiting, some holding, granted⟩ := if_neg hleft
      rwa [hstep]

theorem empty_whole (h : w.Whole) : (w.step .empty).Whole := by
  obtain ⟨start, content, waiting, holder, granted⟩ := w
  rcases holder with _ | holding
  · exact .of_free rfl rfl
  · exact h

/-- **Every move leaves whole records.** -/
theorem step_whole (h : w.Whole) (m : Move) : (w.step m).Whole := by
  cases m with
  | ask a => exact ⟨h.free, h.held⟩
  | grant => exact grant_whole h
  | write count => exact write_whole h count
  | release => exact release_whole h
  | reopen => exact h
  | empty => exact empty_whole h

theorem run_whole (h : w.Whole) (ms : List Move) : (w.run ms).Whole := by
  induction ms generalizing w with
  | nil => exact h
  | cons m ms ih => exact ih (step_whole h m)

end Steps

section Line

variable {u v w : Writer}

theorem run_append (w : Writer) (before after : List Move) :
    w.run (before ++ after) = (w.run before).run after := List.foldl_append

theorem askedIn_append (before after : List Move) :
    askedIn (before ++ after) = askedIn before ++ askedIn after := List.filterMap_append

theorem Extends.refl (w : Writer) : w.Extends w [] :=
  ⟨rfl, (List.append_nil _).symm, List.prefix_refl _⟩

theorem Extends.trans {asked later : List Asking} (h : u.Extends v asked) (h' : v.Extends w later) :
    u.Extends w (asked ++ later) where
  start := h'.start.trans h.start
  line := by rw [h'.line, h.line, List.append_assoc]
  content := h.content.trans h'.content

/-- **One move adds at the end** of the line and of the file, unless it empties the file. -/
theorem step_extends {m : Move} (hm : w.empties m = false) : w.Extends (w.step m) (askedIn [m]) := by
  obtain ⟨start, content, waiting, holder, granted⟩ := w
  cases m with
  | ask a => exact ⟨rfl, (List.append_assoc ..).symm, List.prefix_refl _⟩
  | reopen => exact Extends.refl _
  | grant =>
    rcases holder with _ | holding
    · rcases waiting with _ | ⟨a, rest⟩
      · exact Extends.refl _
      · refine ⟨rfl, ?_, List.prefix_refl _⟩
        simp [order, step, askedIn]
    · exact Extends.refl _
  | write count =>
    rcases holder with _ | holding
    · exact Extends.refl _
    · exact ⟨rfl, (List.append_nil _).symm, List.prefix_append _ _⟩
  | release =>
    rcases holder with _ | holding
    · exact Extends.refl _
    · have hstep : step ⟨start, content, waiting, some holding, granted⟩ .release =
          if holding.left.isEmpty then ⟨start, content, waiting, none, granted⟩
          else ⟨start, content, waiting, some holding, granted⟩ := rfl
      rw [hstep]
      split <;> exact ⟨rfl, (List.append_nil _).symm, List.prefix_refl _⟩
  | empty =>
    rcases holder with _ | holding
    · cases hm
    · exact Extends.refl _

/-- **A run adds at the end** as long as nobody empties the file. -/
theorem run_extends {ms : List Move} (h : w.Keeps ms) : w.Extends (w.run ms) (askedIn ms) := by
  induction ms generalizing w with
  | nil => exact Extends.refl w
  | cons m ms ih =>
    rw [← List.singleton_append, askedIn_append]
    exact (step_extends h.1).trans (ih h.2)

theorem empties_iff {m : Move} : w.empties m = true ↔ m = .empty ∧ w.holder = none := by
  simp [empties]

/-- A run is cut at the last move that empties the file, if there is one. -/
theorem keeps_or_emptied (w : Writer) (ms : List Move) :
    w.Keeps ms ∨ ∃ before after, ms = before ++ .empty :: after ∧
      (w.run before).holder = none ∧ ((w.run before).step .empty).Keeps after := by
  induction ms generalizing w with
  | nil => exact Or.inl trivial
  | cons m ms ih =>
    rcases ih (w.step m) with hkeeps | ⟨before, after, rfl, hfree, hkeeps⟩
    · cases hm : w.empties m with
      | false => exact Or.inl ⟨hm, hkeeps⟩
      | true =>
        obtain ⟨rfl, hfree⟩ := empties_iff.1 hm
        exact Or.inr ⟨[], ms, rfl, hfree, hkeeps⟩
    · exact Or.inr ⟨m :: before, after, rfl, hfree, hkeeps⟩

theorem step_empty (hfree : w.holder = none) :
    w.step .empty = ⟨[], [], w.waiting, none, []⟩ := by
  simp [step, hfree]

/-- One move changes the line only at its ends. -/
theorem step_line (w : Writer) (m : Move) :
    (w.step m).order ++ (w.step m).waiting <:+ w.order ++ w.waiting ++ askedIn [m] := by
  cases hm : w.empties m with
  | false => exact ⟨[], (step_extends hm).line⟩
  | true =>
    obtain ⟨rfl, hfree⟩ := empties_iff.1 hm
    rw [step_empty hfree]
    exact ⟨w.order, (List.append_nil _).symm⟩

/-- **Nobody overtakes anybody**, whether the file is emptied or not: those who got the lock since and those
who still wait are the last of all who asked, in the order of asking. -/
theorem run_line (w : Writer) (ms : List Move) :
    (w.run ms).order ++ (w.run ms).waiting <:+ w.order ++ w.waiting ++ askedIn ms := by
  induction ms generalizing w with
  | nil => exact ⟨[], (List.append_nil _).symm⟩
  | cons m ms ih =>
    obtain ⟨front, hfront⟩ := step_line w m
    refine (ih (w.step m)).trans ⟨front, ?_⟩
    rw [← List.append_assoc, hfront, List.append_assoc, ← askedIn_append]
    rfl

end Line

section Serving

variable {w : Writer}

theorem run_serve {a : Asking} {rest : List Asking} (hfree : w.holder = none)
    (hnext : w.waiting = a :: rest) :
    (w.run (serve a)).holder = none ∧ (w.run (serve a)).waiting = rest := by
  simp [serve, run, step, hfree, hnext]

theorem run_serveAll (hfree : w.holder = none) :
    (w.run (w.waiting.flatMap serve)).holder = none ∧
      (w.run (w.waiting.flatMap serve)).waiting = [] := by
  generalize hwaiting : w.waiting = as
  induction as generalizing w with
  | nil => exact ⟨hfree, hwaiting⟩
  | cons a as ih =>
    obtain ⟨hfree', hrest⟩ := run_serve hfree hwaiting
    rw [List.flatMap_cons, run_append]
    exact ih hfree' hrest

/-- **Everybody who asked can be served**: the lock is free in the end and nobody waits. -/
theorem run_finish (w : Writer) :
    (w.run w.finish).holder = none ∧ (w.run w.finish).waiting = [] := by
  cases hholder : w.holder with
  | none =>
    simp only [finish, hholder, List.nil_append]
    exact run_serveAll hholder
  | some h =>
    have hfirst : w.run [.write h.left.length, .release] =
        { w with content := w.content ++ h.left, holder := none } := by
      simp [run, step, hholder]
    simp only [finish, hholder]
    rw [run_append, hfirst]
    exact run_serveAll rfl

theorem mem_finish {m : Move} (h : m ∈ w.finish) :
    m = .grant ∨ (∃ count, m = .write count) ∨ m = .release := by
  unfold finish at h
  rw [List.mem_append, List.mem_flatMap] at h
  rcases h with h | ⟨a, -, h⟩
  · split at h
    · simp only [List.mem_cons, List.not_mem_nil, or_false] at h
      exact Or.inr (h.imp_left fun h => ⟨_, h⟩)
    · exact absurd h List.not_mem_nil
  · simp only [serve, List.mem_cons, List.not_mem_nil, or_false] at h
    exact h.imp_right fun h => h.imp_left fun h => ⟨_, h⟩

theorem askedIn_finish (w : Writer) : askedIn w.finish = [] := by
  refine List.filterMap_eq_nil_iff.2 fun m hm => ?_
  rcases mem_finish hm with rfl | ⟨count, rfl⟩ | rfl <;> rfl

theorem empty_not_mem_finish (w : Writer) : Move.empty ∉ w.finish := by
  intro h
  rcases mem_finish h with h | ⟨count, h⟩ | h <;> cases h

end Serving

end Writer

section Cutting

/-- The text of a record holds a line feed exactly if something that the caller gave does. -/
theorem newline_mem_text (c : Call) : '\n' ∈ c.text.toList ↔
    match c with
    | .line text => '\n' ∈ text.toList
    | .message stamp text => '\n' ∈ stamp.toList ∨ '\n' ∈ text.toList
    | .request sender => '\n' ∈ sender.toList := by
  cases c <;> simp

/-- **Records are cut apart again at the line feeds** if their texts hold none. -/
theorem splitOn_records {as : List Asking} (h : ∀ a ∈ as, '\n' ∉ a.call.text.toList) :
    (records as).splitOn 10 = as.map (fun a => Utf8.encode a.call.text.toList) ++ [[]] := by
  induction as with
  | nil => rfl
  | cons a as ih =>
    have hlf : (10 : UInt8) ∉ Utf8.encode a.call.text.toList := fun hmem =>
      h a List.mem_cons_self (Utf8.mem_encode hmem (by decide))
    have hcut : records (a :: as) = Utf8.encode a.call.text.toList ++ 10 :: records as := by
      simp [records, Call.record]
    rw [hcut, List.splitOn_append_cons_self_of_not_mem hlf,
      ih fun b hb => h b (List.mem_cons_of_mem a hb)]
    rfl

end Cutting

section Journals

/-- A record is added behind what was in the file. -/
theorem appendAt_contentAt {d d' : Disk.Tree} {p : Disk.Place} {c : Call}
    (h : appendAt d p c = .ok d') : d'.contentAt p = d.contentAt p ++ c.record := by
  unfold appendAt Disk.Tree.append at h
  rw [append_content _ _ rfl rfl] at h
  unfold Disk.Tree.contentAt
  split at h
  · next content hfile =>
    cases h
    have hp : p ≠ [] := by
      rintro rfl
      cases hfile
    rw [Disk.Tree.get_put _ _ hp, hfile]
    rfl
  all_goals cases h

/-- **Records stay whole.** Whatever was in a file at first, and in whatever order calls ask for the lock,
get it, write some octets, and give it back, while between two records the file is opened again or
emptied: when the lock is free there is in the file what was there first, and then the record of each
call that got the lock, in this order; when a call has the lock its own record is the last and has come
as far as it was written. What was there first is what the file was opened with, or nothing if it was
emptied, and those who got the lock since, and then those who wait, are the ones who asked, in the order of
asking, and so for each caller. What is in the file stays where it is until somebody empties it, and
everybody who asked can be served. If no text holds a line feed, cutting what was added at line feeds
gives the texts. Opening a file, for the first time or again, leaves every content as it is, and what is
appended to it then comes behind. -/
theorem records_stay_whole (content : List UInt8) (ms : List Move) :
    let w := (opened content).run ms
    (w.holder = none → w.content = w.start ++ records w.order) ∧
    (∀ h, w.holder = some h → ∃ earlier written, w.order = earlier ++ [h.asking] ∧
      h.asking.call.record = written ++ h.left ∧
      w.content = w.start ++ records earlier ++ written) ∧
    ((opened content).Keeps ms ∧ w.start = content ∧ w.order ++ w.waiting = askedIn ms ∨
      ∃ before after, ms = before ++ .empty :: after ∧
        let v := (opened content).run before
        v.holder = none ∧ (v.step .empty).Keeps after ∧
          w.start = [] ∧ w.order ++ w.waiting = v.waiting ++ askedIn after) ∧
    (∀ caller, (w.order ++ w.waiting).filter (fun a => a.caller = caller) <:+
      (askedIn ms).filter fun a => a.caller = caller) ∧
    (∀ before after, ms = before ++ after →
      let v := (opened content).run before
      v.Keeps after → v.content <+: w.content) ∧
    (∃ rest, Move.empty ∉ rest ∧ askedIn rest = [] ∧
      (w.run rest).holder = none ∧ (w.run rest).waiting = []) ∧
    (w.holder = none → (∀ a ∈ w.order, '\n' ∉ a.call.text.toList) →
      ((w.content.drop w.start.length).splitOn 10).map Utf8.decode =
        w.order.map (fun a => a.call.text.toList) ++ [[]]) ∧
    ∀ (d d' : Disk.Tree) (base p : Disk.Place) (path : String),
      openAt d base path = .ok (d', p) →
        (∀ q, d'.contentAt q = d.contentAt q) ∧
        ∀ (c : Call) (d'' : Disk.Tree), appendAt d' p c = .ok d'' →
          d''.contentAt p = d.contentAt p ++ c.record := by
  intro w
  have hwhole : w.Whole := Writer.run_whole (Writer.opened_whole content) ms
  refine ⟨hwhole.free, hwhole.held, ?_, fun caller => ?_, ?_, ?_, fun hfree htexts => ?_, ?_⟩
  · rcases Writer.keeps_or_emptied (opened content) ms with
      hkeeps | ⟨before, after, hms, hfree, hkeeps⟩
    · have h := Writer.run_extends hkeeps
      exact Or.inl ⟨hkeeps, h.start, h.line⟩
    · refine Or.inr ⟨before, after, hms, hfree, hkeeps, ?_⟩
      have hw : w = (((opened content).run before).step .empty).run after := by
        change (opened content).run ms = _
        rw [hms, Writer.run_append]
        rfl
      rw [hw]
      have h := Writer.run_extends hkeeps
      rw [Writer.step_empty hfree] at h ⊢
      exact ⟨h.start, h.line⟩
  · exact (Writer.run_line (opened content) ms).filter _
  · rintro before after rfl v hkeeps
    have hw : w = v.run after := Writer.run_append (opened content) before after
    rw [hw]
    exact (Writer.run_extends hkeeps).content
  · exact ⟨w.finish, w.empty_not_mem_finish, w.askedIn_finish, w.run_finish⟩
  · rw [hwhole.free hfree, List.drop_left, splitOn_records htexts]
    simp only [List.map_append, List.map_map, Function.comp_def, Utf8.decode_encode]
    rfl
  · intro d d' base p path hopen
    have hsame := Disk.Tree.openAppend_contentAt hopen
    exact ⟨hsame, fun c d'' happend => (appendAt_contentAt happend).trans (by rw [hsame])⟩

/-- Two callers, the first in two pieces; meanwhile the second asks, and an emptying comes too early. The
same for a file that is made when it is opened. -/
theorem records_stay_whole_two_callers :
    let a : Asking := ⟨1, .line "ab"⟩
    let before : List Move := [.ask a, .grant, .write 1, .ask ⟨2, .request "c"⟩, .empty]
    let ms := before ++ [.write 9, .reopen, .release, .grant, .write 11, .release]
    let v := (opened [65]).run before
    let w := (opened [65]).run ms
    let p := ["srv", "chat.txt"]
    let d := (⟨[(p, .file []), (["srv"], .folder)]⟩ : Disk.Tree)
    (v.holder = some ⟨a, [98, 10]⟩ ∧ ∃ earlier written, v.order = earlier ++ [a] ∧
      a.call.record = written ++ [98, 10] ∧ v.content = v.start ++ records earlier ++ written) ∧
    (v.Keeps (ms.drop 5) ∧ v.content <+: w.content) ∧
    (w.holder = none ∧ w.content = w.start ++ records w.order ∧
      w.content = Utf8.encode "Aab\nRequest: c\n".toList) ∧
    ((w.content.drop w.start.length).splitOn 10).map Utf8.decode =
      ["ab".toList, "Request: c".toList, []] ∧
    openAt ⟨[(["srv"], .folder)]⟩ ["srv"] "chat.txt" = .ok (d, p) ∧
    ∃ d', appendAt d p (.message "12:00" "hi") = .ok d' ∧
      d'.contentAt p = Utf8.encode "12:00\thi\n".toList := by
  intro a before ms v w p d
  have hv := records_stay_whole [65] before
  have hw := records_stay_whole [65] ms
  have hfree : w.holder = none := by decide +kernel
  have hholds : v.holder = some ⟨a, [98, 10]⟩ := by decide +kernel
  have hkeeps : v.Keeps (ms.drop 5) := ⟨rfl, rfl, rfl, rfl, rfl, rfl, trivial⟩
  have htexts : ∀ b ∈ w.order, '\n' ∉ b.call.text.toList := by decide +kernel
  have hopen : openAt ⟨[(["srv"], .folder)]⟩ ["srv"] "chat.txt" = .ok (d, p) := rfl
  have happend : appendAt d p (.message "12:00" "hi") =
      .ok ⟨[(p, .file (Utf8.encode "12:00\thi\n".toList)), (["srv"], .folder)]⟩ := rfl
  refine ⟨⟨hholds, hv.2.1 _ hholds⟩, ⟨hkeeps, hw.2.2.2.2.1 before (ms.drop 5) rfl hkeeps⟩,
    ⟨hfree, hw.1 hfree, by decide +kernel⟩,
    (hw.2.2.2.2.2.2.1 hfree htexts).trans (by decide +kernel), hopen, _, happend,
    ((hw.2.2.2.2.2.2.2 _ d ["srv"] p "chat.txt" hopen).2 _ _ happend).trans (by decide +kernel)⟩

end Journals

end Journal
end VoiceRelay
