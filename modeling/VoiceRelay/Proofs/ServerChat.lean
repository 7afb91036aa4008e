import VoiceRelay.Query.Notice
import VoiceRelay.Proofs.EscapedForm
import VoiceRelay.Proofs.Searching

/-!
# Messages to the server

A notice of a message to the server carries its text and the name of its sender as escaped values, and
the relay searches the notice without regard to where a value begins. The marks that it searches for
begin with no letter of an escape and hold no special character, so one stands in an escaped value
exactly where it stands in the value. Whoever writes the mark of the relay's own notices into a text
or a name suppresses the message; whoever writes the mark of the sender into a text cuts the text off.

Only escaped spaces are read. A backslash of the text is written as two, and the second of them with a
letter `s` behind it is taken for an escaped space.

**Design.** `Escape.Overt` are the marks that an escaped value neither hides nor makes up. What is said
of the text is said with `Text.UpTo` and `Text.Replaced`, which name first occurrences only.

**Results.**

- `occurrence_encodeChars`: an overt mark in an escaped value.
- `own_mark_iff`: which notices are taken for the relay's own.
- `textOfChars_ofChat`: the text of any other.
- `spaced_replaced`, `spaced_encodeChars`: what the spaces give.
- `relayed_text`: what the relay makes of a message to the server.
-/

namespace VoiceRelay

section Defs

/-- A mark without special characters that begins with no letter of an escape. -/
def Escape.Overt (mark : List Char) : Prop :=
  (∀ c ∈ mark, c ∉ special) ∧ ∃ m rest, mark = m :: rest ∧ m ∉ letters

namespace Notice

/-- The words in front of the text of a message. -/
def noticeWord : List Char := "notifytextmessage".toList
def modeWord : List Char := "targetmode=3".toList

/-- Stands before the name of the sender. -/
def nameMark : List Char := "invokername=".toList

end Notice

/-- The notice of a message to the server. -/
def Notice.ofChat (text : String) (sender : Nat) (name : String) : String :=
  "notifytextmessage targetmode=3 msg=" ++ Escape.encode text ++ " invokerid=" ++
    .ofList (Decimal.digits sender) ++ " invokername=" ++ Escape.encode name

end Defs

namespace Escape

variable {mark cs w before after : List Char}

section Marks

/-- Plain characters at the front of a written value are the front of the value. -/
theorem plain_front (hw : ∀ c ∈ w, c ∉ special) (h : encodeChars cs = w ++ after) :
    ∃ rest, cs = w ++ rest ∧ after = encodeChars rest := by
  induction w generalizing cs with
  | nil => exact ⟨cs, rfl, h.symm⟩
  | cons d w ih =>
    rcases cs with _ | ⟨c, cs⟩
    · cases h
    · rcases hc : escapeLetter c with _ | letter
      · rw [encodeChars_cons, encodeChar_of_plain hc] at h
        obtain ⟨rfl, htail⟩ := List.cons.inj h
        obtain ⟨rest, rfl, rfl⟩ := ih (fun d hd => hw d (List.mem_cons_of_mem c hd)) htail
        exact ⟨rest, rfl, rfl⟩
      · rw [encodeChars_cons, encodeChar_of_escape hc] at h
        obtain ⟨rfl, -⟩ := List.cons.inj h
        exact absurd (by decide) (hw '\\' List.mem_cons_self)

/-- **Where an overt mark stands in a written value, it stands in the value.** -/
theorem occurrence_encodeChars (hmark : Overt mark)
    (h : encodeChars cs = before ++ (mark ++ after)) :
    ∃ b a, cs = b ++ (mark ++ a) ∧ before = encodeChars b ∧ after = encodeChars a := by
  obtain ⟨hplain, m, rest, hm, hletter⟩ := hmark
  induction cs generalizing before with
  | nil =>
    rw [hm] at h
    simp [encodeChars] at h
  | cons c cs ih =>
    rcases before with _ | ⟨d, before⟩
    · obtain ⟨a, hcs, rfl⟩ := plain_front hplain h
      exact ⟨[], a, hcs, rfl, rfl⟩
    · rcases hc : escapeLetter c with _ | letter
      · rw [encodeChars_cons, encodeChar_of_plain hc] at h
        obtain ⟨rfl, htail⟩ := List.cons.inj h
        obtain ⟨b, a, rfl, rfl, rfl⟩ := ih htail
        refine ⟨c :: b, a, rfl, ?_, rfl⟩
        rw [encodeChars_cons, encodeChar_of_plain hc]
        rfl
      · rw [encodeChars_cons, encodeChar_of_escape hc] at h
        obtain ⟨rfl, htail⟩ := List.cons.inj h
        rcases before with _ | ⟨e, before⟩
        · -- The mark would begin with the letter of the escape.
          rw [hm] at htail
          obtain ⟨rfl, -⟩ := List.cons.inj htail
          exact absurd (mem_letters_iff.2 ⟨c, plainOf_escapeLetter hc⟩) hletter
        · obtain ⟨rfl, hmore⟩ := List.cons.inj htail
          obtain ⟨b, a, rfl, rfl, rfl⟩ := ih hmore
          refine ⟨c :: b, a, rfl, ?_, rfl⟩
          rw [encodeChars_cons, encodeChar_of_escape hc]
          rfl

/-- A mark is written as it stands. -/
theorem Overt.encodeChars_around (hmark : Overt mark) (b a : List Char) :
    encodeChars (b ++ (mark ++ a)) = encodeChars b ++ (mark ++ encodeChars a) := by
  rw [encodeChars_append, encodeChars_append, encodeChars_of_plain hmark.1]

theorem Overt.infix_iff (hmark : Overt mark) : mark <:+: encodeChars cs ↔ mark <:+: cs := by
  rw [Text.isInfix_iff, Text.isInfix_iff]
  constructor
  · rintro ⟨before, after, h⟩
    obtain ⟨b, a, hcs, -, -⟩ := occurrence_encodeChars hmark h
    exact ⟨b, a, hcs⟩
  · rintro ⟨b, a, rfl⟩
    exact ⟨encodeChars b, encodeChars a, hmark.encodeChars_around b a⟩

/-- The first occurrence in a value is the first in its written form. -/
theorem Overt.firstAt (hmark : Overt mark) (h : Text.FirstAt mark cs before after) :
    Text.FirstAt mark (encodeChars cs) (encodeChars before) (encodeChars after) := by
  refine ⟨by rw [h.eq, hmark.encodeChars_around], fun b a heq => ?_⟩
  obtain ⟨front, rest, hcs, rfl, -⟩ := occurrence_encodeChars hmark heq
  have hprefix : before <+: front :=
    List.prefix_of_prefix_length_le ⟨mark ++ after, h.eq.symm⟩ ⟨mark ++ rest, hcs.symm⟩
      (h.first front rest hcs)
  obtain ⟨more, rfl⟩ := hprefix
  rw [encodeChars_append, List.length_append]
  exact Nat.le_add_right _ _

end Marks

end Escape

namespace Notice

section Spaces

/-- Each escaped space is replaced by a space, searched from the left, and one is added at the end. -/
theorem spaced_replaced (cs : List Char) :
    ∃ out, Text.Replaced spaceMark [' '] cs out ∧ spaced cs = out ++ [' '] := by
  fun_induction spaced cs with
  | case1 rest ih =>
    obtain ⟨out, hout, heq⟩ := ih
    exact ⟨[] ++ ([' '] ++ out), .first (.here spaceMark rest) hout, by rw [heq]; rfl⟩
  | case2 c rest hne ih =>
    obtain ⟨out, hout, heq⟩ := ih
    refine ⟨c :: out, hout.cons fun h => ?_, by rw [heq]; rfl⟩
    obtain ⟨tail, htail⟩ := h
    obtain ⟨hc, hrest⟩ := List.cons.inj htail
    exact hne tail hc.symm hrest.symm
  | case3 => exact ⟨[], .rest (by decide), rfl⟩

/-- Of a value whose special characters are spaces, the written form gives the value back. -/
theorem spaced_encodeChars {cs : List Char} (h : ∀ c ∈ cs, c ∈ Escape.special → c = ' ') :
    spaced (Escape.encodeChars cs) = cs ++ [' '] := by
  induction cs with
  | nil => rfl
  | cons c cs ih =>
    have hrest := ih fun d hd => h d (List.mem_cons_of_mem c hd)
    by_cases hc : c ∈ Escape.special
    · obtain rfl := h c List.mem_cons_self hc
      have hspace : Escape.encodeChar ' ' = ['\\', 's'] := rfl
      rw [Escape.encodeChars_cons, hspace, List.cons_append, List.singleton_append, spaced, hrest]
      rfl
    · have hplain := Escape.escapeLetter_of_not_mem hc
      have hslash := Escape.ne_backslash_of_plain hplain
      rw [Escape.encodeChars_cons, Escape.encodeChar_of_plain hplain, List.singleton_append,
        spaced.eq_2 _ _ (fun _ hc _ => hslash hc), hrest]
      rfl

/-- A backslash with an `s` behind it gives a backslash and a space. -/
example : spaced (Escape.encodeChars "C:\\src".toList) = "C:\\ rc ".toList := by decide +kernel

end Spaces

section Notices

variable (text name : String) (sender : Nat)

/-- The notice, cut at the spaces that are not part of a value. -/
theorem ofChat_chars :
    (ofChat text sender name).toList =
      noticeWord ++ ' ' :: (modeWord ++ ' ' :: (textMark ++ Escape.encodeChars text.toList ++
        ' ' :: (senderMark ++ Decimal.digits sender ++
          ' ' :: (nameMark ++ Escape.encodeChars name.toList)))) := by
  have hlead : "notifytextmessage targetmode=3 msg=".toList =
      noticeWord ++ ' ' :: (modeWord ++ ' ' :: textMark) := by decide +kernel
  have hsender : " invokerid=".toList = ' ' :: senderMark := by decide +kernel
  have hname : " invokername=".toList = ' ' :: nameMark := by decide +kernel
  unfold ofChat Escape.encode
  rw [String.toList_append, String.toList_append, String.toList_append, String.toList_append,
    String.toList_append, hlead, hsender, hname, String.toList_ofList, String.toList_ofList,
    String.toList_ofList]
  simp only [List.append_assoc, List.cons_append]

theorem overt_own : Escape.Overt ownMark := ⟨List.all_iff_forall_prop.1 (by decide), 'i', _, rfl, by decide⟩

theorem overt_sender : Escape.Overt senderMark := ⟨List.all_iff_forall_prop.1 (by decide), 'i', _, rfl, by decide⟩

/-- The id of a sender begins with a zero if it is zero. -/
theorem zero_prefix_iff : ['0'] <+: Decimal.digits sender ↔ sender = 0 := by
  constructor
  · rintro ⟨rest, h⟩
    by_contra hne
    exact Decimal.digits_head sender hne (by rw [← h]; rfl)
  · rintro rfl
    decide +kernel

/-- The mark of the relay's own notices is the mark of the sender and a zero. -/
theorem own_in_sender_iff : ownMark <:+: senderMark ++ Decimal.digits sender ↔ sender = 0 := by
  have hown : ownMark = senderMark ++ ['0'] := by decide
  have hdigits : ¬ ownMark <:+: Decimal.digits sender := fun h =>
    absurd (Decimal.digits_isDigit sender 'i' (h.subset (by decide))) (by decide)
  have hsender : senderMark = 'i' :: "nvokerid=".toList := by decide
  have hlater : ownMark <:+: "nvokerid=".toList ++ Decimal.digits sender ↔
      ownMark <:+: Decimal.digits sender := Text.infix_past_iff (by decide +kernel)
  rw [hsender, List.cons_append, List.infix_cons_iff, ← List.cons_append, ← hsender, hlater, hown,
    List.prefix_append_right_inj, ← hown, zero_prefix_iff]
  exact or_iff_left hdigits

/-- **A notice is taken for the relay's own** if the sender has the id 0, and if the text or the name
holds the mark. -/
theorem own_mark_iff :
    ownMark <:+: (ofChat text sender name).toList ↔
      sender = 0 ∨ ownMark <:+: text.toList ∨ ownMark <:+: name.toList := by
  have hspace : ' ' ∉ ownMark := by decide
  have hhead : ¬ ownMark <:+: noticeWord := by decide
  have hmode : ¬ ownMark <:+: modeWord := by decide
  have htext : ownMark <:+: textMark ++ Escape.encodeChars text.toList ↔ ownMark <:+: text.toList :=
    (Text.infix_past_iff (by decide +kernel)).trans overt_own.infix_iff
  have hname : ownMark <:+: nameMark ++ Escape.encodeChars name.toList ↔ ownMark <:+: name.toList :=
    (Text.infix_past_iff (by decide +kernel)).trans overt_own.infix_iff
  rw [ofChat_chars, Text.infix_beside_iff hspace, Text.infix_beside_iff hspace,
    Text.infix_beside_iff hspace, Text.infix_beside_iff hspace, htext, own_in_sender_iff, hname]
  simp only [hhead, hmode, false_or]
  exact or_left_comm

/-- The first mark of a text is the one in front of it. -/
theorem cutAt_textMark :
    ∃ before, Text.cutAt textMark [] (ofChat text sender name).toList =
      some (before, Escape.encodeChars text.toList ++ ' ' :: (senderMark ++
        (Decimal.digits sender ++ ' ' :: (nameMark ++ Escape.encodeChars name.toList)))) := by
  have hspace : ' ' ∉ textMark := by decide
  have hfront : ¬ textMark <:+: noticeWord ++ ' ' :: modeWord := by decide
  refine ⟨noticeWord ++ ' ' :: modeWord ++ [' '], Text.cutAt_eq_some_iff.2 ?_⟩
  rw [ofChat_chars]
  simpa only [List.append_assoc, List.cons_append] using Text.FirstAt.at_once hspace hfront _

variable {text name sender}

/-- The text of a notice ends in front of the first mark of a sender, its own or the one behind it. -/
theorem cutAt_senderMark {front : List Char} (h : Text.UpTo senderMark text.toList front)
    (behind : List Char) :
    ∃ raw after, Text.cutAt senderMark []
        (Escape.encodeChars text.toList ++ ' ' :: (senderMark ++ behind)) = some (raw, after) ∧
      Text.trimEnd raw = Text.trimEnd (Escape.encodeChars front) := by
  rcases h with ⟨after, hfirst⟩ | ⟨hnone, rfl⟩
  · exact ⟨_, _, Text.cutAt_eq_some_iff.2 ((overt_sender.firstAt hfirst).append _), rfl⟩
  · rw [← overt_sender.infix_iff] at hnone
    have hspace : ' ' ∉ senderMark := by decide
    exact ⟨_, _, Text.cutAt_eq_some_iff.2 (.at_once hspace hnone behind),
      trimEnd_concat_of_blank rfl⟩

/-- **The text of a notice** that is not the relay's own. -/
theorem textOfChars_ofChat (hown : ¬ ownMark <:+: (ofChat text sender name).toList)
    {front : List Char} (h : Text.UpTo senderMark text.toList front) :
    textOfChars (ofChat text sender name).toList =
      some (spaced (Text.trimEnd (Escape.encodeChars front))) := by
  obtain ⟨before, htext⟩ := cutAt_textMark text name sender
  obtain ⟨raw, after, hsender, htrim⟩ := cutAt_senderMark h
    (Decimal.digits sender ++ ' ' :: (nameMark ++ Escape.encodeChars name.toList))
  simp only [textOfChars, Text.cutAt_eq_none_iff.2 hown, htext, Option.bind_eq_bind, Option.bind_some,
    hsender, htrim]
  rfl

theorem text?_eq_none_iff :
    text? (ofChat text sender name) = none ↔ ownMark <:+: (ofChat text sender name).toList := by
  constructor
  · intro h
    by_contra hown
    obtain ⟨front, hfront⟩ := Text.exists_upTo senderMark text.toList
    rw [text?, textOfChars_ofChat hown hfront] at h
    cases h
  · intro h
    rcases hcut : Text.cutAt ownMark [] (ofChat text sender name).toList with _ | parts
    · exact absurd h (Text.cutAt_eq_none_iff.1 hcut)
    · simp only [text?, textOfChars, hcut, Option.map_none]

end Notices

section Law

/-- **What the relay makes of a message to the server.** It passes nothing on if the sender has the id
0, or if the text or the name holds the mark of the relay's own notices, and only then. Of any other it
passes on the written form of the text up to the first mark of a sender in it, without the blanks it
ends in, with each escaped space replaced by a space, and one more space. That is the text itself and
a space if the text holds no such mark, no special character but the space, and does not end in a blank
that is written as it stands. -/
theorem relayed_text (text name : String) (sender : Nat) :
    (text? (ofChat text sender name) = none ↔
      sender = 0 ∨ ownMark <:+: text.toList ∨ ownMark <:+: name.toList) ∧
    ∀ passed, text? (ofChat text sender name) = some passed →
      (∃ front out, Text.UpTo senderMark text.toList front ∧
        Text.Replaced spaceMark [' '] (Text.trimEnd (Escape.encodeChars front)) out ∧
        passed.toList = out ++ [' ']) ∧
      (¬ senderMark <:+: text.toList → (∀ c ∈ text.toList, c ∈ Escape.special → c = ' ') →
        Escape.Unshorn text → passed = text ++ " ") := by
  refine ⟨text?_eq_none_iff.trans (own_mark_iff text name sender), fun passed hpassed => ?_⟩
  have hown : ¬ ownMark <:+: (ofChat text sender name).toList := by
    rw [← text?_eq_none_iff, hpassed]
    exact Option.some_ne_none passed
  have heq : ∀ front, Text.UpTo senderMark text.toList front →
      passed.toList = spaced (Text.trimEnd (Escape.encodeChars front)) := by
    intro front hfront
    rw [text?, textOfChars_ofChat hown hfront] at hpassed
    rw [← Option.some.inj hpassed, String.toList_ofList]
  constructor
  · obtain ⟨front, hfront⟩ := Text.exists_upTo senderMark text.toList
    obtain ⟨out, hout, hspaced⟩ := spaced_replaced (Text.trimEnd (Escape.encodeChars front))
    exact ⟨front, out, hfront, hout, (heq front hfront).trans hspaced⟩
  · intro hmark hspaces hend
    have hempty : Text.trimEnd [] = [] := rfl
    have htrim := trimEnd_encodeChars hempty text.toList
    rw [List.nil_append, List.nil_append, rdropWhile_unshorn hend] at htrim
    have hpassed := heq text.toList (Or.inr ⟨hmark, rfl⟩)
    rw [htrim, spaced_encodeChars hspaces] at hpassed
    rw [← String.ofList_toList (s := passed), hpassed, String.ofList_append, String.ofList_toList]

/-- Two words from a sender with another id than the relay, whose id begins with the same digit. -/
theorem relayed_text_two_words :
    (¬ senderMark <:+: "hello world".toList ∧
      (∀ c ∈ "hello world".toList, c ∈ Escape.special → c = ' ') ∧ Escape.Unshorn "hello world") ∧
    text? (ofChat "hello world" 10 "Max|invokerid=1") = some "hello world " := by
  have hmark : ¬ senderMark <:+: "hello world".toList := by decide +kernel
  have hspaces : ∀ c ∈ "hello world".toList, c ∈ Escape.special → c = ' ' :=
    List.all_iff_forall_prop.1 (by decide +kernel)
  have hend : Escape.Unshorn "hello world" := by decide +kernel
  obtain ⟨hnone, hsome⟩ := relayed_text "hello world" "Max|invokerid=1" 10
  refine ⟨⟨hmark, hspaces, hend⟩, ?_⟩
  rcases hpassed : text? (ofChat "hello world" 10 "Max|invokerid=1") with _ | passed
  · have hown : ¬ (10 = 0 ∨ ownMark <:+: "hello world".toList ∨
        ownMark <:+: "Max|invokerid=1".toList) := by decide +kernel
    exact absurd (hnone.1 hpassed) hown
  · rw [(hsome passed hpassed).2 hmark hspaces hend]
    rfl

end Law

end Notice
end VoiceRelay
