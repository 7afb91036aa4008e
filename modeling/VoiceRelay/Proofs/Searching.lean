import VoiceRelay.Proofs.ReplyLines
import Mathlib.Data.List.Infix

/-!
# Searching a text from the left

A cut at a mark is a cut at its first occurrence, and there is none exactly if the mark does not occur.
What stands behind an element that the mark does not hold changes nothing about the occurrences in front
of it. Replacing a mark from the left is cutting at its first occurrence again and again.

**Design.** `Text.FirstAt` says what a first occurrence is, by comparing it with every other occurrence.
`Text.Replaced` is built on it alone: each step replaces the first occurrence in what is left.

**Results.**

- `cutAt_eq_some_iff`, `cutAt_eq_none_iff`: what a cut finds.
- `occurrence_beside`, `infix_beside_iff`: an occurrence lies on one side of an element that it does not
  hold.
- `FirstAt.append`: a first occurrence stays the first when more text follows.
-/

namespace VoiceRelay
namespace Text

section Defs

variable {α : Type}

/-- In `cs` the mark occurs first between `before` and `after`. -/
structure FirstAt (mark cs before after : List α) : Prop where
  eq : cs = before ++ (mark ++ after)
  first : ∀ b a, cs = b ++ (mark ++ a) → before.length ≤ b.length

/-- What stands in front of the first occurrence of a mark: the whole text, if it does not occur. -/
def UpTo (mark cs before : List α) : Prop :=
  (∃ after, FirstAt mark cs before after) ∨ ¬ mark <:+: cs ∧ before = cs

/-- A text with every occurrence of a mark replaced, searched from the left. -/
inductive Replaced (mark new : List α) : List α → List α → Prop
  | rest {cs : List α} : ¬ mark <:+: cs → Replaced mark new cs cs
  | first {cs before after out : List α} : FirstAt mark cs before after →
      Replaced mark new after out → Replaced mark new cs (before ++ (new ++ out))

end Defs

section Occurrences

variable {α : Type} {mark cs before after front behind : List α} {x c : α}

theorem FirstAt.isInfix (h : FirstAt mark cs before after) : mark <:+: cs :=
  ⟨before, after, by rw [h.eq, List.append_assoc]⟩

theorem isInfix_iff : mark <:+: cs ↔ ∃ b a, cs = b ++ (mark ++ a) := by
  constructor
  · rintro ⟨b, a, rfl⟩
    exact ⟨b, a, List.append_assoc b mark a⟩
  · rintro ⟨b, a, rfl⟩
    exact List.infix_append' b mark a

/-- There is one first occurrence. -/
theorem FirstAt.unique {before' after' : List α} (h : FirstAt mark cs before after)
    (h' : FirstAt mark cs before' after') : before = before' ∧ after = after' := by
  have hlength : before.length = before'.length :=
    Nat.le_antisymm (h.first before' after' h'.eq) (h'.first before after h.eq)
  obtain ⟨hbefore, htail⟩ := List.append_inj (h.eq.symm.trans h'.eq) hlength
  exact ⟨hbefore, List.append_cancel_left htail⟩

theorem FirstAt.here (mark after : List α) : FirstAt mark (mark ++ after) [] after :=
  ⟨rfl, fun _ _ _ => Nat.zero_le _⟩

/-- An element where the mark does not begin puts the first occurrence off. -/
theorem FirstAt.cons (hc : ¬ mark <+: c :: cs) (h : FirstAt mark cs before after) :
    FirstAt mark (c :: cs) (c :: before) after := by
  refine ⟨by rw [h.eq, List.cons_append], fun b a heq => ?_⟩
  rcases b with _ | ⟨d, b⟩
  · exact absurd ⟨a, heq.symm⟩ hc
  · exact Nat.succ_le_succ (h.first b a (List.cons.inj heq).2)

/-- **An occurrence lies in front of an element that the mark does not hold, or behind it.** -/
theorem occurrence_beside (hx : x ∉ mark) (h : front ++ x :: behind = before ++ (mark ++ after)) :
    (∃ a, front = before ++ (mark ++ a)) ∨
      ∃ b, before = front ++ x :: b ∧ behind = b ++ (mark ++ after) := by
  rcases List.append_eq_append_iff.1 h with ⟨b, rfl, hb⟩ | ⟨e, rfl, he⟩
  · -- The element stands before the mark, or where the mark begins.
    rcases b with _ | ⟨y, b⟩
    · rcases mark with _ | ⟨m, mark⟩
      · exact Or.inl ⟨[], by simp⟩
      · obtain ⟨rfl, -⟩ := List.cons.inj hb
        exact absurd List.mem_cons_self hx
    · obtain ⟨rfl, rfl⟩ := List.cons.inj hb
      exact Or.inr ⟨b, rfl, rfl⟩
  · rcases List.append_eq_append_iff.1 he with ⟨a, rfl, -⟩ | ⟨m, rfl, hm⟩
    · exact Or.inl ⟨a, rfl⟩
    · -- The element stands in the mark, or right behind it.
      rcases m with _ | ⟨y, m⟩
      · exact Or.inl ⟨[], by simp⟩
      · obtain ⟨rfl, -⟩ := List.cons.inj hm
        exact absurd (List.mem_append_right _ List.mem_cons_self) hx

theorem infix_beside_iff (hx : x ∉ mark) :
    mark <:+: front ++ x :: behind ↔ mark <:+: front ∨ mark <:+: behind := by
  constructor
  · intro h
    obtain ⟨b, a, heq⟩ := isInfix_iff.1 h
    rcases occurrence_beside hx heq with ⟨a, rfl⟩ | ⟨b, -, rfl⟩
    · exact Or.inl (List.infix_append' _ _ _)
    · exact Or.inr (List.infix_append' _ _ _)
  · rintro (h | h)
    · exact h.trans (List.prefix_append front _).isInfix
    · exact h.trans ((List.suffix_cons x behind).trans (List.suffix_append front _)).isInfix

/-- A mark that neither stands in a text nor begins in it stands in what comes after it. -/
theorem infix_past_iff (h : ∀ t ∈ front.tails, t = [] ∨ ¬ mark <+: t ∧ ¬ t <+: mark) :
    mark <:+: front ++ behind ↔ mark <:+: behind := by
  induction front with
  | nil => rfl
  | cons c front ih =>
    obtain ⟨hmark, hfront⟩ := (h (c :: front) (by simp)).resolve_left (List.cons_ne_nil c front)
    have hstart : ¬ mark <+: c :: front ++ behind := fun hprefix =>
      (List.prefix_or_prefix_of_prefix hprefix (List.prefix_append _ behind)).elim hmark hfront
    rw [← ih fun t ht => h t (List.mem_cons_of_mem _ ht), List.cons_append,
      List.infix_cons_iff, ← List.cons_append]
    exact or_iff_right hstart

/-- **A first occurrence stays the first** when more text follows. -/
theorem FirstAt.append (h : FirstAt mark cs before after) (more : List α) :
    FirstAt mark (cs ++ more) before (after ++ more) := by
  refine ⟨by rw [h.eq, List.append_assoc, List.append_assoc], fun b a heq => ?_⟩
  by_contra hlt
  -- An earlier occurrence would end within the text.
  have hlength : (b ++ mark).length ≤ cs.length := by
    have hcs := congrArg List.length h.eq
    simp only [List.length_append] at hcs ⊢
    omega
  have hprefix : b ++ mark <+: cs ++ more := ⟨a, by rw [heq, List.append_assoc]⟩
  obtain ⟨rest, hrest⟩ :=
    List.prefix_of_prefix_length_le hprefix (List.prefix_append cs more) hlength
  exact hlt (h.first b rest (by rw [← hrest, List.append_assoc]))

/-- Behind a text where it does not occur and an element that it does not hold, a mark occurs at once. -/
theorem FirstAt.at_once (hx : x ∉ mark) (hfront : ¬ mark <:+: front) (after : List α) :
    FirstAt mark (front ++ x :: (mark ++ after)) (front ++ [x]) after := by
  refine ⟨by simp, fun b a heq => ?_⟩
  rcases occurrence_beside hx heq with ⟨a, rfl⟩ | ⟨b, rfl, -⟩
  · exact absurd (List.infix_append' _ _ _) hfront
  · simp only [List.length_append, List.length_cons, List.length_nil]
    omega

end Occurrences

section Cutting

variable {α : Type} [DecidableEq α] {mark cs before after : List α}

theorem dropLead?_eq_some_iff {rest : List α} : dropLead? mark cs = some rest ↔ cs = mark ++ rest := by
  constructor
  · intro h
    have hsome : (dropLead? mark cs).isSome := by rw [h]; rfl
    obtain ⟨tail, rfl⟩ := dropLead?_isSome.1 hsome
    rw [dropLead?_append] at h
    rw [Option.some.inj h]
  · rintro rfl
    exact dropLead?_append mark rest

/-- What has been passed stands in front of what is found. -/
theorem cutAt_seen (seen : List α) :
    cutAt mark seen cs = (cutAt mark [] cs).map fun parts => (seen.reverse ++ parts.1, parts.2) := by
  induction cs generalizing seen with
  | nil =>
    simp only [cutAt]
    split <;> simp
  | cons c cs ih =>
    simp only [cutAt]
    split
    · simp
    · rw [ih (c :: seen), ih [c]]
      simp [Function.comp_def]

/-- **What a cut finds**: the first occurrence, or that there is none. -/
theorem cutAt_spec (mark cs : List α) :
    match cutAt mark [] cs with
    | some (before, after) => FirstAt mark cs before after
    | none => ¬ mark <:+: cs := by
  induction cs with
  | nil =>
    rcases mark with _ | ⟨m, mark⟩
    · exact .here [] []
    · simp [cutAt]
  | cons c cs ih =>
    rw [cutAt]
    rcases hlead : dropLead? mark (c :: cs) with _ | rest
    · have hc : ¬ mark <+: c :: cs := by
        rw [← dropLead?_isSome, hlead]
        exact Bool.false_ne_true
      simp only [cutAt_seen [c]]
      rcases hcut : cutAt mark [] cs with _ | ⟨before, after⟩
      · rw [hcut] at ih
        simp only [Option.map_none]
        rw [List.infix_cons_iff, not_or]
        exact ⟨hc, ih⟩
      · rw [hcut] at ih
        exact .cons hc ih
    · rw [dropLead?_eq_some_iff.1 hlead]
      exact .here mark rest

theorem cutAt_eq_some_iff : cutAt mark [] cs = some (before, after) ↔ FirstAt mark cs before after := by
  have hspec := cutAt_spec mark cs
  rcases hcut : cutAt mark [] cs with _ | ⟨b, a⟩
  · rw [hcut] at hspec
    exact ⟨fun h => (by cases h), fun h => absurd h.isInfix hspec⟩
  · rw [hcut] at hspec
    constructor
    · intro h
      cases h
      exact hspec
    · intro h
      obtain ⟨rfl, rfl⟩ := hspec.unique h
      rfl

theorem cutAt_eq_none_iff : cutAt mark [] cs = none ↔ ¬ mark <:+: cs := by
  have hspec := cutAt_spec mark cs
  rcases hcut : cutAt mark [] cs with _ | ⟨b, a⟩
  · rw [hcut] at hspec
    exact ⟨fun _ => hspec, fun _ => rfl⟩
  · rw [hcut] at hspec
    exact ⟨fun h => (by cases h), fun h => absurd hspec.isInfix h⟩

theorem exists_upTo (mark cs : List α) : ∃ before, UpTo mark cs before := by
  rcases hcut : cutAt mark [] cs with _ | ⟨before, after⟩
  · exact ⟨cs, Or.inr ⟨cutAt_eq_none_iff.1 hcut, rfl⟩⟩
  · exact ⟨before, Or.inl ⟨after, cutAt_eq_some_iff.1 hcut⟩⟩

end Cutting

section Replacing

variable {α : Type} {mark new cs out : List α} {c : α}

/-- An element where the mark does not begin is kept. -/
theorem Replaced.cons (hc : ¬ mark <+: c :: cs) (h : Replaced mark new cs out) :
    Replaced mark new (c :: cs) (c :: out) := by
  cases h with
  | rest hnone => exact .rest fun h => (List.infix_cons_iff.1 h).elim hc hnone
  | first hfirst hrest => exact .first (hfirst.cons hc) hrest

end Replacing

end Text
end VoiceRelay
