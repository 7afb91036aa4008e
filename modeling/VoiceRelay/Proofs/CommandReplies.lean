import VoiceRelay.Proofs.ReplyLines
import VoiceRelay.Proofs.TimelyReading
import VoiceRelay.Proofs.Clock

/-!
# Commands and their replies

A command whose whole reply is delivered in time returns all records of the reply, or the refusal that
its status line spells, and has then read the reply and nothing of what follows it. So commands that are
sent one after the other each return what their own reply says.

**Design.** `Link.commands` sends commands one after the other, each as soon as the one before has
returned. `timely` says of the other side alone that it delivers the replies in time: it knows the sizes
of the replies, and the time at which a command is sent is the time at which the reply before was there.

**Results.**

- `reply_answered`: a reply that is delivered in time is read, line by line.
- `command_answered`: what a command does whose reply is delivered in time.
- `commands_answered`: the same for commands one after the other.
-/

namespace VoiceRelay

section Defs

/-- What commands have come to that were sent one after the other. -/
structure Link.Turns where
  results : List (Option (Except Fault (List Record)))
  now : Nat
  link : Link

/-- Sends commands one after the other, each when the one before has returned. -/
def Link.commands (l : Link) (timeLimit now : Nat) : List String → Link.Turns
  | [] => ⟨[], now, l⟩
  | text :: texts =>
    let turn := l.command timeLimit none now text
    let rest := turn.link.commands timeLimit turn.now texts
    { rest with results := turn.result :: rest.results }

/-- Whether the other side delivers replies of some sizes in time, each within a time limit from the
moment at which the one before was there; `lines` is how many lines were sent to it before. -/
def timely (timeLimit lines : Nat) (d : Delivery) : List Nat → Bool
  | [] => true
  | size :: sizes =>
    (delivery (lines + 1) size d.time d.surplus d.script).any fun d' =>
      decide (d'.time < d.time + timeLimit) && timely timeLimit (lines + 1) d' sizes

/-- Whether the other side accepts some more lines. -/
def Link.Accepts (l : Link) (count : Nat) : Prop := ∀ k ∈ l.accepted, l.writes + count ≤ k

/-- The other side as a connection sees it: what it has delivered, and what it still has to say. -/
def Link.present (l : Link) (now : Nat) : Delivery := ⟨now, l.reader.buffer.length, l.script⟩

end Defs

section Replies

variable {deadline : Deadline} {further : List UInt8} {d : Delivery}

theorem octets_cons (p : Passage) (passages : List Passage) (s : Status) :
    Response.octets ⟨p :: passages, s⟩ =
      p.octets ++ Line.delimiter ++ Response.octets ⟨passages, s⟩ := by
  rw [Response.octets, Line.ending, Response.lines, List.map_cons, List.cons_append,
    List.flatMap_cons]
  rfl

theorem octets_nil (s : Status) :
    Response.octets ⟨[], s⟩ = Utf8.encode s.written ++ Line.delimiter := by
  simp [Response.octets, Response.lines, Line.ending]

theorem Response.WellFormed.tail {p : Passage} {passages : List Passage} {s : Status} {limit : Nat}
    (h : Response.WellFormed ⟨p :: passages, s⟩ limit) : Response.WellFormed ⟨passages, s⟩ limit where
  passages := fun q hq => h.passages q (List.mem_cons_of_mem p hq)
  id := h.id
  message := h.message
  short := fun line hline => h.short line (List.mem_cons_of_mem _ hline)

/-- **A reply that is delivered in time is read to its end and no further.** -/
theorem reply_answered {a : Response} {l : Link} {now : Nat} (records : List Record)
    (hl : l.Untroubled) (ha : a.WellFormed l.reader.limit) (hoctets : l.octets = a.octets ++ further)
    (hd : l.delivery a.octets.length now = some d) (htime : deadline.before d.time = false) :
    ∃ l', l.reply deadline now records =
        ⟨some (if a.status.id = 0 then .ok (records ++ a.records)
          else .error (.refusal a.status.id a.status.message)), d.time, l'⟩ ∧
      l.HasRead l' further ∧ l'.delivery 0 d.time = some d := by
  obtain ⟨passages, s⟩ := a
  induction passages generalizing l now records with
  | nil =>
    -- The status line is the last line, and the moment at which it is there is that of the reply.
    have hcut : Line.cut l.octets = some (Utf8.encode s.written, further) := by
      rw [hoctets, octets_nil]
      exact Line.cut_delimiter further (Line.cut_eq_none_iff.1 (cut_status s))
    have hlength : (Response.octets ⟨[], s⟩).length = (Utf8.encode s.written).length + 2 := by
      rw [octets_nil, List.length_append]
      rfl
    obtain ⟨now', l', hhear, hread, hd'⟩ := Link.hear_line hl hcut
      (ha.short _ (List.mem_singleton.2 rfl)) (Nat.le_of_eq hlength.symm) hd htime
    have hparse : Status.parse? (Line.textOf (Utf8.encode s.written)) = some s := by
      rw [Status.parse?, Line.textOf, Utf8.decode_encode, String.toList_ofList]
      exact Status.ofChars_written ha.id ha.message
    rw [hlength, Nat.sub_self] at hd'
    obtain rfl : now' = d.time := by
      rw [Link.delivery, delivery_of_le _ _ _ (Nat.zero_le _), Option.some.injEq] at hd'
      rw [← hd']
    refine ⟨l', ?_, hread, hd'⟩
    rw [Link.reply_eq]
    simp only [hhear, hparse]
    by_cases hid : s.id = 0
    · simp [Status.isOk, hid, Response.records]
    · simp [Status.isOk, hid]
  | cons p passages ih =>
    have hp : p.WellFormed := ha.passages p List.mem_cons_self
    have hcut : Line.cut l.octets = some (p.octets, Response.octets ⟨passages, s⟩ ++ further) := by
      rw [hoctets, octets_cons, List.append_assoc]
      exact Line.cut_delimiter _ (Line.cut_eq_none_iff.1 (cut_passage hp))
    have hlength : (Response.octets ⟨p :: passages, s⟩).length =
        p.octets.length + 2 + (Response.octets ⟨passages, s⟩).length := by
      rw [octets_cons, List.length_append, List.length_append]
      rfl
    obtain ⟨now', l', hhear, hread, hd'⟩ := Link.hear_line hl hcut
      (ha.short _ List.mem_cons_self) (by omega) hd htime
    rw [hlength, Nat.add_sub_cancel_left] at hd'
    have ha' := ha.tail
    rw [← hread.limit_eq] at ha'
    obtain ⟨l'', hreply, hread', hd''⟩ :=
      ih (records ++ p.records) hread.untroubled ha' hread.octets_eq hd'
    refine ⟨l'', ?_, hread.trans hread', hd''⟩
    rw [Link.reply_eq]
    simp only [hhear, parse?_passage hp, recordsIn_passage hp, hreply]
    simp [Response.records]

end Replies

namespace Link

variable {further : List UInt8} {d : Delivery} {timeLimit now : Nat} {l : Link}

/-- A connection after a command was sent and its reply was read. -/
structure HasAsked (l l' : Link) (text : String) (further : List UInt8) : Prop where
  untroubled : l'.Untroubled
  octets_eq : l'.octets = further
  limit_eq : l'.reader.limit = l.reader.limit
  writes_eq : l'.writes = l.writes + 1
  accepted_eq : l'.accepted = l.accepted
  sent_eq : l'.sentOctets = l.sentOctets ++ (Utf8.encode text.toList ++ [Line.lf])

/-- **What a command does whose reply is delivered in time.** It sends its text and one line feed,
returns what the reply says, and leaves what follows the reply. -/
theorem command_answered {a : Response} {text : String} (hl : l.Untroubled)
    (hbreaks : Line.breaks text = false) (haccepts : l.Accepts 1) (ha : a.WellFormed l.reader.limit)
    (hoctets : l.octets = a.octets ++ further)
    (hd : VoiceRelay.delivery (l.writes + 1) a.octets.length now l.reader.buffer.length l.script =
      some d)
    (htime : d.time < now + timeLimit) :
    ∃ l', l.command timeLimit none now text = ⟨some a.outcome, d.time, l'⟩ ∧
      l.HasAsked l' text further ∧ l'.present d.time = d := by
  have hframe : Line.frame text = some (Utf8.encode text.toList ++ [Line.lf]) := by
    rw [Line.frame, hbreaks]
    rfl
  have hrefuses : l.refuses = false := by
    unfold refuses
    cases haccepted : l.accepted with
    | none => rfl
    | some k =>
      have := haccepts k haccepted
      simp only [decide_eq_false_iff_not]
      omega
  have hlines : ({ l with writes := l.writes + 1 } : Link).lines = l.writes + 1 := by
    unfold lines
    cases haccepted : l.accepted with
    | none => rfl
    | some k => exact Nat.min_eq_left (haccepts k haccepted)
  have hsend : l.send now text = (none, ({ l with writes := l.writes + 1 } : Link).note
      (.sent now (Utf8.encode text.toList ++ [Line.lf]))) := by
    simp [send, hframe, hrefuses]
  have hsent := Untroubled.sent now text hl
  rw [hsend] at hsent
  have hopen : (Deadline.earlier (some (now + timeLimit)) none).before d.time = false := by
    rw [Deadline.before_earlier, Deadline.before_of_le (Nat.le_of_lt htime)]
    rfl
  obtain ⟨l', hreply, hread, hd'⟩ :=
    reply_answered [] hsent ha hoctets (by rw [delivery]; exact hlines ▸ hd) hopen
  refine ⟨l', ?_, ?_, ?_⟩
  · simp only [command, hsend, hreply, List.nil_append]
    rfl
  · exact
      { untroubled := hread.untroubled
        octets_eq := hread.octets_eq
        limit_eq := hread.limit_eq
        writes_eq := hread.writes_eq
        accepted_eq := hread.accepted_eq
        sent_eq := by rw [hread.sent_eq]; simp [sentOctets, note] }
  · rw [delivery, delivery_of_le _ _ _ (Nat.zero_le _), Option.some.injEq] at hd'
    exact hd'

theorem timely_cons {lines size : Nat} {d : Delivery} {sizes : List Nat}
    (h : timely timeLimit lines d (size :: sizes) = true) :
    ∃ d', VoiceRelay.delivery (lines + 1) size d.time d.surplus d.script = some d' ∧
      d'.time < d.time + timeLimit ∧ timely timeLimit (lines + 1) d' sizes = true := by
  rw [timely] at h
  cases hd : VoiceRelay.delivery (lines + 1) size d.time d.surplus d.script with
  | none =>
    rw [hd] at h
    cases h
  | some d' =>
    rw [hd, Option.any_some, Bool.and_eq_true, decide_eq_true_eq] at h
    exact ⟨d', rfl, h⟩

/-- **Commands get their own replies.** On a connection on which no read has failed, commands are sent one
after the other to a side that delivers a whole reply to each in time, in whatever pieces. Then every
command writes its text and one line feed and returns the records of its reply, or the refusal that the
status line spells, and what follows the last reply is left as it is. -/
theorem commands_answered {exchanges : List (String × Response)} (hl : l.Untroubled)
    (haccepts : l.Accepts exchanges.length)
    (hcommands : ∀ x ∈ exchanges, Line.breaks x.1 = false)
    (hreplies : ∀ x ∈ exchanges, x.2.WellFormed l.reader.limit)
    (hoctets : l.octets = exchanges.flatMap (·.2.octets) ++ further)
    (htimely : timely timeLimit l.writes (l.present now)
      (exchanges.map fun x => x.2.octets.length) = true) :
    let turns := l.commands timeLimit now (exchanges.map Prod.fst)
    turns.results = exchanges.map (fun x => some x.2.outcome) ∧
      turns.link.octets = further ∧
      turns.link.sentOctets = l.sentOctets ++
        exchanges.flatMap (fun x => Utf8.encode x.1.toList ++ [Line.lf]) ∧
      turns.link.Untroubled := by
  induction exchanges generalizing l now with
  | nil =>
    refine ⟨rfl, hoctets, ?_, hl⟩
    simp [commands]
  | cons x exchanges ih =>
    obtain ⟨text, a⟩ := x
    have hbreaks : Line.breaks text = false := hcommands (text, a) List.mem_cons_self
    obtain ⟨d, hd, htime, hrest⟩ : ∃ d, VoiceRelay.delivery (l.writes + 1) a.octets.length now
        l.reader.buffer.length l.script = some d ∧ d.time < now + timeLimit ∧
        timely timeLimit (l.writes + 1) d (exchanges.map fun x => x.2.octets.length) = true :=
      timely_cons htimely
    have hroom : ∀ k ∈ l.accepted, l.writes + (exchanges.length + 1) ≤ k := haccepts
    obtain ⟨l', hcommand, hasked, hpresent⟩ := command_answered hl hbreaks
      (fun k hk => by have := hroom k hk; omega) (hreplies _ List.mem_cons_self)
      (by rw [hoctets, List.flatMap_cons, List.append_assoc]) hd htime
    have hroom' : l'.Accepts exchanges.length := fun k hk => by
      have := hroom k (hasked.accepted_eq ▸ hk)
      rw [hasked.writes_eq]
      omega
    rw [← hpresent, ← hasked.writes_eq] at hrest
    obtain ⟨hresults, hleft, hsent, huntroubled⟩ := ih hasked.untroubled hroom'
      (fun y hy => hcommands y (List.mem_cons_of_mem _ hy))
      (fun y hy => hasked.limit_eq ▸ hreplies y (List.mem_cons_of_mem _ hy)) hasked.octets_eq hrest
    rw [List.map_cons, commands, hcommand]
    refine ⟨?_, hleft, ?_, huntroubled⟩
    · rw [List.map_cons]
      exact congrArg _ hresults
    · rw [hsent, hasked.sent_eq, List.flatMap_cons, List.append_assoc]

/-- Two commands whose replies come in three pieces, the first after a while, the second with the rest of
one reply and the beginning of the next; a part of another line comes with the last one. -/
theorem commands_answered_in_pieces :
    let first : Response :=
      ⟨[.notice (Utf8.encode "notifytextmessage msg=a|b".toList), .blank [Line.cr],
        .data [⟨[("clid", "1"), ("name", "error id=0|x")]⟩, ⟨[("clid", "2"), ("name", "\n\r")]⟩],
        .data [⟨[("error", "ü\u00A0!")]⟩]], ⟨0, "ok"⟩⟩
    let second : Response := ⟨[], ⟨512, "invalid clientID"⟩⟩
    let said := first.octets ++ second.octets ++ [110, 111]
    let peer : Peer := ⟨[.awaitLines 1, .silence 40, .data (said.take 7), .silence 3,
      .data ((said.drop 7).take 160), .awaitLines 2, .data (said.drop 167), .finish], some 2⟩
    let turns := (Link.ofPeer peer).commands 50 5 ["clientlist", "gm msg=x"]
    turns.results =
        [some (.ok [⟨[("clid", "1"), ("name", "error id=0|x")]⟩, ⟨[("clid", "2"), ("name", "\n\r")]⟩,
          ⟨[("error", "ü\u00A0!")]⟩]),
          some (.error (.refusal 512 "invalid clientID"))] ∧
      turns.link.octets = [110, 111] ∧
      turns.link.sentOctets = Utf8.encode "clientlist\ngm msg=x\n".toList := by
  intro first second said peer turns
  have hl : (Link.ofPeer peer).Untroubled := .opened peer false
  have haccepts : (Link.ofPeer peer).Accepts [("clientlist", first), ("gm msg=x", second)].length := by
    intro k hk
    cases hk
    exact Nat.le_refl 2
  have hoctets : (Link.ofPeer peer).octets =
      [("clientlist", first), ("gm msg=x", second)].flatMap (·.2.octets) ++ [110, 111] := by
    decide +kernel
  have htimely : timely 50 0 ((Link.ofPeer peer).present 5)
      ([("clientlist", first), ("gm msg=x", second)].map fun x => x.2.octets.length) = true := by
    decide +kernel
  obtain ⟨hresults, hleft, hsent, -⟩ := commands_answered hl haccepts (by decide +kernel)
    (by decide +kernel) hoctets htimely
  refine ⟨hresults, hleft, hsent.trans ?_⟩
  decide +kernel

end Link

end VoiceRelay
