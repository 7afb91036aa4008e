import VoiceRelay.Proofs.Lines
import Mathlib.Data.List.Infix

/-!
# Lines and the reads they arrive in

Octets arrive in reads that end anywhere, also in the middle of a delimiter or of a character. After
each read the decoder is called until it asks for more, and at the end of the stream until nothing is
left. The lines that come out are those of the whole stream, wherever the reads end.

The reads do show in one place: the limit on the length of a line is tested on what stands in the
buffer when a read ends. So a line of exactly the limit is refused if a read ends in the middle of its
delimiter, and a longer one if a read ends while more than the limit is buffered.

**Design.** `pieces` are the stretches of a stream between its delimiters. `Decoding` is the decoder
between two calls, with everything that it has handed out, refused and consumed; a refusal notes where
the refused line begins. After every read the decoder has consumed all pieces but the last one, which
is its buffer (`Decoding.Stands`), so the state after a number of reads is a function of the octets
that they brought.

**Results.**

- `intercalate_pieces`, `cut_of_mem_pieces`: the pieces hold no delimiter, and with delimiters between
  them they are the stream.
- `afterReads_stands`: what the decoder has consumed and buffers after a number of reads.
- `refuses_iff`: which lines are refused.
- `decoding_ignores_cuts`: the lines of a stream do not depend on the reads, and what the limit does.
-/

namespace VoiceRelay
namespace Line

section Defs

/-- The stretches between the delimiters of some octets; the last one follows the last delimiter. -/
def pieces (data : List UInt8) : List (List UInt8) :=
  match _h : cut data with
  | none => [data]
  | some (line, rest) => line :: pieces rest
  termination_by data.length
  decreasing_by exact cut_length _h

/-- The pieces that are lines: all but an empty last one. -/
def kept : List (List UInt8) → List (List UInt8)
  | [] => []
  | [last] => if last = [] then [] else [last]
  | line :: next :: more => line :: kept (next :: more)

/-- Lines as they are sent. -/
def ending (lines : List (List UInt8)) : List UInt8 := lines.flatMap (· ++ delimiter)

/-- A refusal: how many octets were consumed before it, and how many stood in the buffer. -/
structure Refusal where
  start : Nat
  length : Nat
  deriving DecidableEq, Repr

/-- The decoder between two calls: what it has handed out and refused, oldest first, the octets that
it has consumed and those in its buffer. -/
structure Decoding where
  texts : List String
  refusals : List Refusal
  consumed : List UInt8
  buffer : List UInt8
  deriving DecidableEq, Repr

namespace Decoding

/-- A decoder that has received nothing. -/
def fresh : Decoding := ⟨[], [], [], []⟩

/-- Calls the decoder until it asks for more octets or refuses. -/
def drain (limit : Nat) (ended : Bool) (d : Decoding) : Decoding :=
  match _h : decode limit ended d.buffer with
  | .more => d
  | .tooLong n => { d with refusals := d.refusals ++ [⟨d.consumed.length, n⟩] }
  | .line text rest =>
    drain limit ended
      { d with
        texts := d.texts ++ [text]
        consumed := d.consumed ++ d.buffer.take (d.buffer.length - rest.length)
        buffer := rest }
  termination_by d.buffer.length
  decreasing_by exact decode_length _h

/-- Takes what a read has brought. -/
def receive (limit : Nat) (d : Decoding) (octets : List UInt8) : Decoding :=
  drain limit false { d with buffer := d.buffer ++ octets }

/-- The decoder after some reads. -/
def afterReads (limit : Nat) (reads : List (List UInt8)) : Decoding :=
  reads.foldl (receive limit) fresh

/-- The decoder after some reads and the end of the stream. -/
def ofReads (limit : Nat) (reads : List (List UInt8)) : Decoding :=
  drain limit true (afterReads limit reads)

/-- The line that follows some others was refused. -/
def Refuses (d : Decoding) (before : List (List UInt8)) : Prop :=
  ∃ r ∈ d.refusals, r.start = (ending before).length

/-- What the decoder refuses when it is called with what it buffers, if that holds no delimiter. -/
def refusal? (limit : Nat) (d : Decoding) : Option Refusal :=
  if limit < d.buffer.length then some ⟨d.consumed.length, d.buffer.length⟩ else none

/-- The decoder has received some octets and consumed some whole lines of them. -/
structure Stands (d : Decoding) (data : List UInt8) (whole : List (List UInt8)) : Prop where
  data_eq : data = ending whole ++ d.buffer
  whole_cut : ∀ line ∈ whole, cut line = none
  consumed_eq : d.consumed = ending whole
  texts_eq : d.texts = whole.map textOf

end Decoding

end Defs

section Pieces

/-- A stretch without a delimiter is found in front of a delimiter that follows it. -/
theorem cutFrom_delimiter {line : List UInt8} (seen rest : List UInt8)
    (h : ¬ delimiter <:+: line) :
    cutFrom seen (line ++ delimiter ++ rest) = some (seen.reverse ++ line, rest) := by
  induction line generalizing seen with
  | nil => simp [delimiter, cutFrom]
  | cons a line ih =>
    have hline : ¬ delimiter <:+: line := fun hin => h (List.infix_cons hin)
    have hstep : cutFrom seen (a :: line ++ delimiter ++ rest) =
        cutFrom (a :: seen) (line ++ delimiter ++ rest) := by
      cases line with
      | nil =>
        have hlf : ¬ (a = lf ∧ lf = cr) := by
          rintro ⟨-, hcr⟩
          cases hcr
        simp [delimiter, cutFrom, hlf]
      | cons b line =>
        have hab : ¬ (a = lf ∧ b = cr) := by
          rintro ⟨rfl, rfl⟩
          exact h ⟨[], line, rfl⟩
        simp [cutFrom, hab]
    rw [hstep, ih (a :: seen) hline]
    simp

theorem cut_delimiter {line : List UInt8} (rest : List UInt8) (h : ¬ delimiter <:+: line) :
    cut (line ++ delimiter ++ rest) = some (line, rest) :=
  cutFrom_delimiter [] rest h

/-- A cut fails on octets without a delimiter and only there. -/
theorem cut_eq_none_iff {data : List UInt8} : cut data = none ↔ ¬ delimiter <:+: data := by
  constructor
  · rintro hnone ⟨front, back, rfl⟩
    -- Some delimiter is the first one; a cut behind it would fail as well.
    induction hn : front.length using Nat.strongRecOn generalizing front back with
    | ind n ih =>
      subst hn
      by_cases hfront : delimiter <:+: front
      · obtain ⟨f, b, rfl⟩ := hfront
        have hlt : f.length < (f ++ delimiter ++ b).length := by simp [delimiter]
        exact ih f.length hlt f (b ++ delimiter ++ back) (by simpa using hnone) rfl
      · rw [cut_delimiter back hfront] at hnone
        cases hnone
  · intro hno
    rcases hc : cut data with _ | ⟨line, rest⟩
    · rfl
    · exact absurd ⟨line, rest, (cut_eq hc).symm⟩ hno

/-- The line that a cut finds holds no delimiter: it would have been found first. -/
theorem cut_line {data line rest : List UInt8} (h : cut data = some (line, rest)) :
    cut line = none := by
  rcases hc : cut line with _ | ⟨first, more⟩
  · rfl
  · have hfound := cut_append hc (delimiter ++ rest)
    rw [← List.append_assoc, ← cut_eq h, h] at hfound
    have hline : line = first := congrArg Prod.fst (Option.some.inj hfound)
    have hlen := congrArg List.length (cut_eq hc)
    simp [hline, delimiter] at hlen

theorem pieces_of_none {data : List UInt8} (h : cut data = none) : pieces data = [data] := by
  rw [pieces]
  split
  · rfl
  · next h' => rw [h] at h'; cases h'

theorem pieces_of_cut {data line rest : List UInt8} (h : cut data = some (line, rest)) :
    pieces data = line :: pieces rest := by
  rw [pieces]
  split
  · next h' => rw [h] at h'; cases h'
  · next h' =>
    rw [h] at h'
    cases h'
    rfl

theorem pieces_ne_nil (data : List UInt8) : pieces data ≠ [] := by
  rcases hc : cut data with _ | ⟨line, rest⟩
  · simp [pieces_of_none hc]
  · simp [pieces_of_cut hc]

/-- No piece holds a delimiter. -/
theorem cut_of_mem_pieces {data piece : List UInt8} (h : piece ∈ pieces data) :
    cut piece = none := by
  fun_induction pieces data with
  | case1 data hc =>
    rw [List.mem_singleton.1 h]
    exact hc
  | case2 data line rest hc ih =>
    rcases List.mem_cons.1 h with rfl | h
    · exact cut_line hc
    · exact ih h

/-- The pieces with delimiters between them are the whole stream. -/
theorem intercalate_pieces (data : List UInt8) : delimiter.intercalate (pieces data) = data := by
  fun_induction pieces data with
  | case1 data hc => exact List.intercalate_singleton
  | case2 data line rest hc ih =>
    obtain ⟨next, more, hm⟩ := List.exists_cons_of_ne_nil (pieces_ne_nil rest)
    rw [hm] at ih ⊢
    rw [List.intercalate_cons_cons, ih, ← cut_eq hc]

/-- Whole lines in front of some octets are the first pieces. -/
theorem pieces_ending {whole : List (List UInt8)} (h : ∀ line ∈ whole, cut line = none)
    (rest : List UInt8) : pieces (ending whole ++ rest) = whole ++ pieces rest := by
  induction whole with
  | nil => rfl
  | cons line whole ih =>
    have hline := cut_eq_none_iff.1 (h line List.mem_cons_self)
    have hrest := ih fun other hother => h other (List.mem_cons_of_mem _ hother)
    have hcut := cut_delimiter (ending whole ++ rest) hline
    have hcons : ending (line :: whole) ++ rest = line ++ delimiter ++ (ending whole ++ rest) := by
      simp [ending]
    rw [hcons, pieces_of_cut hcut, hrest, List.cons_append]

theorem intercalate_append (front : List (List UInt8)) (piece : List UInt8)
    (back : List (List UInt8)) :
    delimiter.intercalate (front ++ piece :: back) =
      ending front ++ delimiter.intercalate (piece :: back) := by
  induction front with
  | nil => rfl
  | cons line front ih =>
    obtain ⟨next, more, hm⟩ := List.exists_cons_of_ne_nil (by simp : front ++ piece :: back ≠ [])
    rw [List.cons_append, hm, List.intercalate_cons_cons, ← hm, ih]
    simp [ending]

theorem kept_concat (whole : List (List UInt8)) (last : List UInt8) :
    kept (whole ++ [last]) = whole ++ if last = [] then [] else [last] := by
  induction whole with
  | nil => rfl
  | cons line whole ih =>
    obtain ⟨next, more, hm⟩ := List.exists_cons_of_ne_nil (by simp : whole ++ [last] ≠ [])
    rw [hm] at ih
    rw [List.cons_append, hm, kept, ih, List.cons_append]

/-- The first piece is as long as what was received of it, but possibly for the first half of its
delimiter. -/
theorem head_pieces_length {data : List UInt8} (hn : cut data = none) (more : List UInt8) :
    ∃ piece others, pieces (data ++ more) = piece :: others ∧ data.length ≤ piece.length + 1 := by
  rcases hc : cut (data ++ more) with _ | ⟨line, rest⟩
  · refine ⟨_, [], pieces_of_none hc, ?_⟩
    rw [List.length_append]
    omega
  · exact ⟨line, _, pieces_of_cut hc, length_le_of_cut_none hn (take_of_cut hc)⟩

/-- The first half of a delimiter adds none. -/
theorem cut_half {line : List UInt8} (h : cut line = none) : cut (line ++ [lf]) = none := by
  rcases hc : cut (line ++ [lf]) with _ | ⟨first, rest⟩
  · rfl
  · have hlong := cut_append hc [cr]
    have hwhole := cut_delimiter [] (cut_eq_none_iff.1 h)
    rw [List.append_assoc, ← List.append_nil [lf], List.append_assoc] at hlong
    simp only [delimiter, List.append_nil] at hwhole
    rw [show [lf] ++ ([] ++ [cr]) = [lf, cr] from rfl, hwhole] at hlong
    simp at hlong

end Pieces

namespace Decoding

section Calls

variable {limit : Nat} {d : Decoding} {data : List UInt8} {whole : List (List UInt8)}

/-- A refused call leaves all octets in the buffer. -/
theorem drain_tooLong {ended : Bool} {n : Nat} (h : decode limit ended d.buffer = .tooLong n) :
    d.drain limit ended = { d with refusals := d.refusals ++ [⟨d.consumed.length, n⟩] } := by
  rw [drain]
  split
  · next h' => rw [h] at h'; cases h'
  · next h' =>
    rw [h] at h'
    cases h'
    rfl
  · next h' => rw [h] at h'; cases h'

theorem fresh_stands : fresh.Stands [] [] where
  data_eq := rfl
  whole_cut line h := by cases h
  consumed_eq := rfl
  texts_eq := rfl

theorem Stands.receive (h : d.Stands data whole) (octets : List UInt8) :
    Stands { d with buffer := d.buffer ++ octets } (data ++ octets) whole :=
  { h with data_eq := by rw [h.data_eq, List.append_assoc] }

theorem Stands.take (h : d.Stands data whole) {line rest : List UInt8}
    (hc : cut d.buffer = some (line, rest)) :
    Stands
      { d with
        texts := d.texts ++ [textOf line]
        consumed := d.consumed ++ d.buffer.take (d.buffer.length - rest.length)
        buffer := rest }
      data (whole ++ [line]) := by
  have hbuffer := cut_eq hc
  have htake : d.buffer.take (d.buffer.length - rest.length) = line ++ delimiter := by
    rw [hbuffer, List.length_append, Nat.add_sub_cancel]
    exact List.take_left
  refine ⟨?_, ?_, ?_, ?_⟩
  · rw [h.data_eq, hbuffer]
    simp [ending]
  · intro other hother
    rcases List.mem_append.1 hother with hother | hother
    · exact h.whole_cut other hother
    · rw [List.mem_singleton.1 hother]
      exact cut_line hc
  · simp only [htake, h.consumed_eq]
    simp [ending]
  · simp [h.texts_eq]

/-- A decoder without a delimiter in its buffer has consumed all pieces but the last. -/
theorem Stands.pieces_eq (h : d.Stands data whole) (hc : cut d.buffer = none) :
    pieces data = whole ++ [d.buffer] := by
  rw [h.data_eq, pieces_ending h.whole_cut, pieces_of_none hc]

/-- **After a read** the decoder has consumed all whole lines, and has refused what it still buffers
if that is longer than the limit. -/
theorem drain_open (limit : Nat) (h : d.Stands data whole) :
    ∃ more, (d.drain limit false).Stands data (whole ++ more) ∧
      cut (d.drain limit false).buffer = none ∧
      (d.drain limit false).refusals =
        d.refusals ++ ((d.drain limit false).refusal? limit).toList := by
  fun_induction drain limit false d generalizing whole with
  | case1 d hdec =>
    obtain ⟨hnone, hle⟩ := decode_eq_more hdec
    rw [take_false] at hnone
    refine ⟨[], by simpa using h, hnone, ?_⟩
    simp [refusal?, Nat.not_lt.2 hle]
  | case2 d n hdec =>
    obtain ⟨hnone, hlt, rfl⟩ := decode_eq_tooLong hdec
    rw [take_false] at hnone
    refine ⟨[], ?_, hnone, by simp [refusal?, hlt]⟩
    rw [List.append_nil]
    exact { h with }
  | case3 d text rest hdec ih =>
    obtain ⟨line, rfl, htake⟩ := decode_eq_line hdec
    rw [take_false] at htake
    obtain ⟨more, hstands, hcut, hrefusals⟩ := ih (h.take htake)
    refine ⟨line :: more, ?_, hcut, hrefusals⟩
    rw [List.append_assoc] at hstands
    exact hstands

/-- **At the end of the stream** what is left in the buffer is the last line. -/
theorem drain_ended (hc : cut d.buffer = none) :
    d.drain limit true =
      { d with
        texts := d.texts ++ if d.buffer = [] then [] else [textOf d.buffer]
        consumed := d.consumed ++ d.buffer
        buffer := [] } := by
  have hempty : ∀ g : Decoding, g.buffer = [] → g.drain limit true = g := by
    intro g hg
    rw [drain]
    split
    · rfl
    · next n hdec =>
      obtain ⟨-, hlt, -⟩ := decode_eq_tooLong hdec
      rw [hg] at hlt
      cases hlt
    · next hdec =>
      obtain ⟨line, -, htake⟩ := decode_eq_line hdec
      rw [hg, take_nil] at htake
      cases htake
  by_cases hb : d.buffer = []
  · rw [hempty d hb]
    obtain ⟨texts, refusals, consumed, buffer⟩ := d
    cases hb
    simp
  · have htake := take_of_cut_none hb hc
    rw [drain]
    split
    · next hdec =>
      rw [(decode_eq_more hdec).1] at htake
      cases htake
    · next hdec =>
      rw [(decode_eq_tooLong hdec).1] at htake
      cases htake
    · next hdec =>
      obtain ⟨line, rfl, htake'⟩ := decode_eq_line hdec
      rw [htake] at htake'
      cases htake'
      rw [hempty _ rfl]
      simp [hb]

end Calls

section Reads

variable (limit : Nat) (reads : List (List UInt8))

theorem afterReads_concat (octets : List UInt8) :
    afterReads limit (reads ++ [octets]) = (afterReads limit reads).receive limit octets :=
  List.foldl_concat ..

theorem flatten_take_drop (k : Nat) :
    (reads.take k).flatten ++ (reads.drop k).flatten = reads.flatten := by
  rw [← List.flatten_append, List.take_append_drop]

/-- What the decoder has consumed and buffers after some reads. -/
theorem afterReads_stands :
    ∃ whole, (afterReads limit reads).Stands reads.flatten whole ∧
      cut (afterReads limit reads).buffer = none := by
  induction reads using List.reverseRecOn with
  | nil => exact ⟨[], fresh_stands, rfl⟩
  | append_singleton reads octets ih =>
    obtain ⟨whole, hstands, -⟩ := ih
    obtain ⟨more, hmore, hcut, -⟩ := drain_open limit (hstands.receive octets)
    rw [afterReads_concat, List.flatten_append, List.flatten_singleton]
    exact ⟨whole ++ more, hmore, hcut⟩

/-- What is refused is refused at the end of a read. -/
theorem mem_refusals {r : Refusal} :
    r ∈ (afterReads limit reads).refusals ↔
      ∃ k, (afterReads limit (reads.take k)).refusal? limit = some r := by
  induction reads using List.reverseRecOn with
  | nil => simp [afterReads, fresh, refusal?]
  | append_singleton reads octets ih =>
    obtain ⟨whole, hstands, -⟩ := afterReads_stands limit reads
    obtain ⟨-, -, -, hrefusals⟩ := drain_open limit (hstands.receive octets)
    have hstep : (afterReads limit (reads ++ [octets])).refusals =
        (afterReads limit reads).refusals ++
          ((afterReads limit (reads ++ [octets])).refusal? limit).toList := by
      rw [afterReads_concat]
      exact hrefusals
    rw [hstep, List.mem_append, ih, Option.mem_toList]
    constructor
    · rintro (⟨k, hk⟩ | hlast)
      · refine ⟨min k reads.length, ?_⟩
        rw [List.take_append_of_le_length (Nat.min_le_right ..), ← List.take_take, List.take_length]
        exact hk
      · exact ⟨(reads ++ [octets]).length, by rwa [List.take_length]⟩
    · rintro ⟨k, hk⟩
      by_cases hle : k ≤ reads.length
      · rw [List.take_append_of_le_length hle] at hk
        exact Or.inl ⟨k, hk⟩
      · rw [List.take_of_length_le (by simp; omega)] at hk
        exact Or.inr hk

/-- **Which lines are refused**: the line that follows some others is refused if and only if a read
ends while more than the limit is buffered of it, and no delimiter. -/
theorem refuses_iff {front back : List (List UInt8)} {piece : List UInt8}
    (h : pieces reads.flatten = front ++ piece :: back) :
    (afterReads limit reads).Refuses front ↔
      ∃ k part, (reads.take k).flatten = ending front ++ part ∧ limit < part.length ∧
        ¬ delimiter <:+: part := by
  have hfront : ∀ line ∈ front, cut line = none := fun line hline =>
    cut_of_mem_pieces (h ▸ List.mem_append_left _ hline)
  constructor
  · rintro ⟨r, hr, hstart⟩
    obtain ⟨k, hk⟩ := (mem_refusals limit reads).1 hr
    obtain ⟨whole, hstands, hcut⟩ := afterReads_stands limit (reads.take k)
    unfold refusal? at hk
    split at hk
    · next hlt =>
      cases hk
      refine ⟨k, _, ?_, hlt, cut_eq_none_iff.1 hcut⟩
      -- Both stretches begin the stream and have the same length.
      have hdata := intercalate_pieces reads.flatten
      rw [h, intercalate_append, ← flatten_take_drop reads k, hstands.data_eq,
        List.append_assoc] at hdata
      rw [hstands.consumed_eq] at hstart
      rw [hstands.data_eq, (List.append_inj hdata hstart.symm).1]
    · cases hk
  · rintro ⟨k, part, hdata, hlt, hpart⟩
    obtain ⟨whole, hstands, hcut⟩ := afterReads_stands limit (reads.take k)
    have hpieces := hstands.pieces_eq hcut
    rw [hdata, pieces_ending hfront, pieces_of_none (cut_eq_none_iff.2 hpart)] at hpieces
    obtain ⟨rfl, hlast⟩ := List.append_inj' hpieces rfl
    cases hlast
    refine ⟨_, (mem_refusals limit reads).2 ⟨k, if_pos hlt⟩, ?_⟩
    rw [hstands.consumed_eq]

/-- A line of the length of the limit is refused if and only if a read ends inside its delimiter. -/
theorem refuses_exact_iff {front back : List (List UInt8)} {piece : List UInt8}
    (h : pieces reads.flatten = front ++ piece :: back) (hlen : piece.length = limit)
    (hback : back ≠ []) :
    (afterReads limit reads).Refuses front ↔
      ∃ k, (reads.take k).flatten = ending front ++ piece ++ [lf] := by
  have hmem : piece ∈ pieces reads.flatten := by
    rw [h]
    simp
  have hpiece := cut_of_mem_pieces hmem
  rw [refuses_iff limit reads h]
  constructor
  · rintro ⟨k, part, hdata, hlt, hpart⟩
    refine ⟨k, ?_⟩
    obtain ⟨next, others, rfl⟩ := List.exists_cons_of_ne_nil hback
    have hprefix : part <+: piece ++ delimiter ++ delimiter.intercalate (next :: others) := by
      refine ⟨(reads.drop k).flatten, ?_⟩
      have hwhole := intercalate_pieces reads.flatten
      rw [h, intercalate_append, List.intercalate_cons_cons] at hwhole
      have hsplit := flatten_take_drop reads k
      rw [hdata, ← hwhole, List.append_assoc] at hsplit
      exact List.append_cancel_left hsplit
    -- One octet more would complete the delimiter.
    have hshort : part.length < piece.length + 2 := by
      by_contra hlong
      have hin : piece ++ delimiter <+: part :=
        List.prefix_of_prefix_length_le (List.prefix_append ..) hprefix (by
          simp [delimiter]
          omega)
      exact hpart ((List.suffix_append piece delimiter).isInfix.trans hin.isInfix)
    have hhalf : piece ++ [lf] <+: piece ++ delimiter ++ delimiter.intercalate (next :: others) :=
      ⟨cr :: delimiter.intercalate (next :: others), by simp [delimiter]⟩
    have heq : part = piece ++ [lf] :=
      (List.prefix_of_prefix_length_le hprefix hhalf (by simp; omega)).eq_of_length
        (by simp; omega)
    rw [hdata, heq, List.append_assoc]
  · rintro ⟨k, hdata⟩
    refine ⟨k, piece ++ [lf], ?_, ?_, cut_eq_none_iff.1 (cut_half hpiece)⟩
    · rw [hdata, List.append_assoc]
    · simp [hlen]

/-- Lines that are shorter than the limit are not refused. -/
theorem refusals_of_short (h : ∀ piece ∈ pieces reads.flatten, piece.length < limit) :
    (afterReads limit reads).refusals = [] := by
  rw [List.eq_nil_iff_forall_not_mem]
  intro r hr
  obtain ⟨k, hk⟩ := (mem_refusals limit reads).1 hr
  obtain ⟨whole, hstands, hcut⟩ := afterReads_stands limit (reads.take k)
  unfold refusal? at hk
  split at hk
  · next hlt =>
    -- What is refused is the beginning of a piece, which is then longer than allowed.
    have hsplit : reads.flatten =
        ending whole ++ ((afterReads limit (reads.take k)).buffer ++ (reads.drop k).flatten) := by
      rw [← List.append_assoc, ← hstands.data_eq, flatten_take_drop]
    obtain ⟨piece, others, hpieces, hle⟩ := head_pieces_length hcut (reads.drop k).flatten
    have hmem : piece ∈ pieces reads.flatten := by
      rw [hsplit, pieces_ending hstands.whole_cut, hpieces]
      simp
    have hpiece := h piece hmem
    omega
  · cases hk

end Reads

end Decoding

section Streams

/-- **Decoding does not depend on the reads.** However a stream is cut into reads, the decoder hands
out the texts of its pieces between delimiters, consumes every octet and ends with an empty buffer.
If every piece is shorter than the limit, nothing is refused. A piece is refused if and only if a read
ends while more than the limit is buffered of it and no delimiter; so one of exactly the limit that
has a delimiter is refused if and only if a read ends inside that delimiter. A refused call consumes
nothing. -/
theorem decoding_ignores_cuts (limit : Nat) (reads : List (List UInt8)) :
    let d := Decoding.ofReads limit reads
    delimiter.intercalate (pieces reads.flatten) = reads.flatten ∧
      (∀ piece ∈ pieces reads.flatten, ¬ delimiter <:+: piece) ∧
      d.texts = (kept (pieces reads.flatten)).map textOf ∧
      d.consumed = reads.flatten ∧ d.buffer = [] ∧
      ((∀ piece ∈ pieces reads.flatten, piece.length < limit) → d.refusals = []) ∧
      (∀ front piece back, pieces reads.flatten = front ++ piece :: back →
        (d.Refuses front ↔
          ∃ k part, (reads.take k).flatten = ending front ++ part ∧ limit < part.length ∧
            ¬ delimiter <:+: part) ∧
        (piece.length = limit → back ≠ [] →
          (d.Refuses front ↔ ∃ k, (reads.take k).flatten = ending front ++ piece ++ [lf]))) ∧
      ∀ (g : Decoding) (ended : Bool) (n : Nat), decode limit ended g.buffer = .tooLong n →
        (g.drain limit ended).buffer = g.buffer ∧ (g.drain limit ended).consumed = g.consumed := by
  intro d
  obtain ⟨whole, hstands, hcut⟩ := Decoding.afterReads_stands limit reads
  have hpieces := hstands.pieces_eq hcut
  have hd : d = _ := Decoding.drain_ended hcut
  have hrefusals : d.refusals = (Decoding.afterReads limit reads).refusals := by rw [hd]
  have hrefuses : ∀ front, d.Refuses front ↔ (Decoding.afterReads limit reads).Refuses front := by
    intro front
    unfold Decoding.Refuses
    rw [hrefusals]
  refine ⟨intercalate_pieces _, fun piece hpiece => cut_eq_none_iff.1 (cut_of_mem_pieces hpiece),
    ?_, ?_, by rw [hd], ?_, ?_, ?_⟩
  · rw [hd, hpieces, kept_concat, List.map_append, ← hstands.texts_eq]
    by_cases hb : (Decoding.afterReads limit reads).buffer = [] <;> simp [hb]
  · rw [hd, hstands.consumed_eq]
    exact hstands.data_eq.symm
  · intro hshort
    rw [hrefusals, Decoding.refusals_of_short limit reads hshort]
  · intro front piece back h
    rw [hrefuses]
    exact ⟨Decoding.refuses_iff limit reads h, Decoding.refuses_exact_iff limit reads h⟩
  · intro g ended n htooLong
    rw [Decoding.drain_tooLong htooLong]
    exact ⟨rfl, rfl⟩

/-- A line of three octets at a limit of three, with the delimiter in one read and in two. -/
example :
    (Decoding.ofReads 3 [[97, 98, 99], [lf, cr]]).refusals = [] ∧
      (Decoding.ofReads 3 [[97, 98, 99, lf], [cr]]).refusals = [⟨0, 4⟩] := by
  decide +kernel

end Streams

end Line
end VoiceRelay
