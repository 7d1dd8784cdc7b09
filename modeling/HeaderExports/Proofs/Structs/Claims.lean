import HeaderExports.SpanSet
import Mathlib.Data.List.Perm.Basic
import Mathlib.Tactic.Common

/-!
# Claimed spans stay disjoint

The spans of a set lie from left to right, each of them has a byte, and none
reaches the next one. Under this invariant one neighbour decides whether a span
is free: the first claimed span that does not stop before it starts. A claim
keeps the invariant, wherever the new span falls between the others.
-/

namespace HeaderExports.SpanSet

open Text (Span)

/-- The claimed spans have bytes and lie from left to right without overlap. -/
structure Ordered (claimed : SpanSet) : Prop where
  /-- Every claimed span has a byte. -/
  inhabited : ∀ span ∈ claimed.spans, span.start < span.stop
  /-- Every claimed span stops before the next one starts. -/
  apart : claimed.spans.Pairwise fun left right => left.stop ≤ right.start

/-- Nothing is out of order where nothing is claimed. -/
theorem ordered_empty : empty.Ordered := by
  constructor
  · intro span hm
    cases hm
  · exact List.Pairwise.nil

/-- Spans that do not reach each other share no byte. -/
theorem meets_eq_false_of_le {left right : Span} (hl : left.stop ≤ right.start) :
    left.meets right = false ∧ right.meets left = false := by
  simp only [Span.meets, Span.isEmpty, Bool.and_eq_false_imp, Bool.and_eq_true,
    Bool.not_eq_true', decide_eq_false_iff_not, decide_eq_true_eq]
  constructor <;> omega

/-- On ordered spans the first one that does not stop before a span starts
decides whether any of them shares a byte with it. -/
theorem overlaps_iff {claimed : SpanSet} (ho : claimed.Ordered) (span : Span) :
    claimed.overlaps span = true ↔ ∃ other ∈ claimed.spans, other.meets span = true := by
  obtain ⟨spans⟩ := claimed
  have hi := ho.inhabited
  have ha := ho.apart
  clear ho
  simp only at hi ha
  induction spans with
  | nil => simp [overlaps]
  | cons next rest ih =>
    have hnext := hi next List.mem_cons_self
    have hrest := fun other hm => hi other (List.mem_cons_of_mem next hm)
    rw [List.pairwise_cons] at ha
    by_cases hstop : next.stop ≤ span.start
    · have hpast : overlaps ⟨next :: rest⟩ span = overlaps ⟨rest⟩ span := by
        rw [overlaps, List.dropWhile_cons_of_pos (by simpa using hstop)]
        rfl
      have hmiss := (meets_eq_false_of_le hstop).1
      have hothers := ih hrest ha.2
      rw [hpast]
      refine hothers.trans ?_
      simp only [List.mem_cons, exists_eq_or_imp, hmiss, Bool.false_eq_true, false_or]
    · have hhere : overlaps ⟨next :: rest⟩ span =
          (decide (next.start < span.stop) && decide (span.start < span.stop)) := by
        rw [overlaps, List.dropWhile_cons_of_neg (by simpa using hstop)]
      have hmeets : next.meets span = true ↔ next.start < span.stop ∧ span.start < span.stop := by
        simp only [Span.meets, Span.isEmpty, Bool.and_eq_true, Bool.not_eq_true',
          decide_eq_false_iff_not, decide_eq_true_eq]
        omega
      rw [hhere, Bool.and_eq_true, decide_eq_true_eq, decide_eq_true_eq, ← hmeets]
      constructor
      · intro hm
        exact ⟨next, List.mem_cons_self, hm⟩
      · rintro ⟨other, hm, hother⟩
        rcases List.mem_cons.mp hm with rfl | hm
        · exact hother
        -- a later span that meets this one starts behind the next one
        · have hlater := ha.1 other hm
          have hbyte := hrest other hm
          simp only [Span.meets, Span.isEmpty, Bool.and_eq_true, Bool.not_eq_true',
            decide_eq_false_iff_not, decide_eq_true_eq] at hother
          rw [hmeets]
          omega

/-- The spans behind an insertion are the old ones and the new one. -/
theorem perm_insertSorted (span : Span) (spans : List Span) :
    (insertSorted span spans).Perm (span :: spans) := by
  induction spans with
  | nil => exact List.Perm.refl _
  | cons next rest ih =>
    unfold insertSorted
    split
    · exact (List.Perm.cons next ih).trans (List.Perm.swap span next rest)
    · exact List.Perm.refl _

/-- A span that shares no byte with ordered ones is inserted in order. -/
theorem pairwise_insertSorted {span : Span} (hs : span.start < span.stop) {spans : List Span}
    (hi : ∀ other ∈ spans, other.start < other.stop)
    (ha : spans.Pairwise fun left right => left.stop ≤ right.start)
    (hf : ∀ other ∈ spans, other.meets span = false) :
    (insertSorted span spans).Pairwise fun left right => left.stop ≤ right.start := by
  induction spans with
  | nil => exact List.pairwise_singleton _ _
  | cons next rest ih =>
    have hnext := hi next List.mem_cons_self
    have hfree := hf next List.mem_cons_self
    simp only [Span.meets, Span.isEmpty, Bool.and_eq_false_imp, Bool.and_eq_true,
      Bool.not_eq_true', decide_eq_false_iff_not, decide_eq_true_eq] at hfree
    rw [List.pairwise_cons] at ha
    unfold insertSorted
    split
    · rename_i hbefore
      have hrest := ih (fun other hm => hi other (List.mem_cons_of_mem next hm)) ha.2
        (fun other hm => hf other (List.mem_cons_of_mem next hm))
      rw [List.pairwise_cons]
      refine ⟨fun other hm => ?_, hrest⟩
      rcases List.mem_cons.mp ((perm_insertSorted span rest).mem_iff.mp hm) with rfl | hm
      · omega
      · exact ha.1 other hm
    · rename_i hbehind
      rw [List.pairwise_cons, List.pairwise_cons]
      refine ⟨fun other hm => ?_, ha⟩
      rcases List.mem_cons.mp hm with rfl | hm
      · omega
      · have hlater := ha.1 other hm
        omega

/-- A claim succeeds exactly if the span has a byte and no claimed span shares
one with it. -/
theorem claim?_eq_some_iff {claimed claimed' : SpanSet} (ho : claimed.Ordered) {span : Span} :
    claimed.claim? span = some claimed' ↔
      (span.start < span.stop ∧ ∀ other ∈ claimed.spans, other.meets span = false) ∧
        claimed' = ⟨insertSorted span claimed.spans⟩ := by
  have hoverlaps := overlaps_iff ho span
  unfold claim?
  split_ifs with hrefused
  · rw [Bool.or_eq_true, hoverlaps, Span.isEmpty, decide_eq_true_eq] at hrefused
    simp only [false_iff, not_and]
    rintro ⟨hspan, hfree⟩
    rcases hrefused with hempty | ⟨other, hm, hmeets⟩
    · omega
    · rw [hfree other hm] at hmeets
      cases hmeets
  · rw [Bool.or_eq_true, hoverlaps, Span.isEmpty, decide_eq_true_eq, not_or] at hrefused
    rw [Option.some.injEq, eq_comm (a := claimed')]
    refine ⟨fun he => ⟨⟨by omega, fun other hm => ?_⟩, he⟩, fun h => h.2⟩
    exact Bool.eq_false_iff.mpr fun hmeets => hrefused.2 ⟨other, hm, hmeets⟩

/-- A claim that succeeds keeps the spans in order. -/
theorem ordered_claim? {claimed claimed' : SpanSet} (ho : claimed.Ordered) {span : Span}
    (hc : claimed.claim? span = some claimed') : claimed'.Ordered := by
  obtain ⟨⟨hspan, hfree⟩, rfl⟩ := (claim?_eq_some_iff ho).mp hc
  constructor
  · intro other hm
    rcases List.mem_cons.mp ((perm_insertSorted span claimed.spans).mem_iff.mp hm) with rfl | hm
    · exact hspan
    · exact ho.inhabited other hm
  · exact pairwise_insertSorted hspan ho.inhabited ho.apart hfree

/-- A span is free of given ones if it has a byte and shares none with them. -/
def Free (taken : List Span) (span : Span) : Prop :=
  (∃ byte, span.Covers byte) ∧ ∀ other ∈ taken, ¬∃ byte, other.Covers byte ∧ span.Covers byte

/-- Freedom is decided by the ends of the spans. -/
theorem free_iff {taken : List Span} {span : Span} :
    Free taken span ↔ span.start < span.stop ∧ ∀ other ∈ taken, other.meets span = false := by
  have hbyte : (∃ byte, span.Covers byte) ↔ span.start < span.stop := by
    constructor
    · rintro ⟨byte, hlow, hhigh⟩
      omega
    · intro h
      exact ⟨span.start, Nat.le_refl _, h⟩
  simp only [Free, hbyte, ← Span.meets_iff, Bool.not_eq_true]

instance (taken : List Span) (span : Span) : Decidable (Free taken span) :=
  decidable_of_iff _ free_iff.symm

/-- A claim succeeds exactly on free spans. -/
theorem claim?_isSome_iff {claimed : SpanSet} (ho : claimed.Ordered) (span : Span) :
    (claimed.claim? span).isSome = true ↔ Free claimed.spans span := by
  rw [Option.isSome_iff_exists, free_iff]
  constructor
  · rintro ⟨claimed', hc⟩
    exact ((claim?_eq_some_iff ho).mp hc).1
  · intro hf
    exact ⟨_, (claim?_eq_some_iff ho).mpr ⟨hf, rfl⟩⟩

/-- A span that a further one does not reach may be claimed before it. -/
theorem free_insertSorted_iff {taken : List Span} {first span : Span}
    (hl : first.stop ≤ span.start) :
    Free (insertSorted first taken) span ↔ Free taken span := by
  have hmiss := (meets_eq_false_of_le hl).1
  simp only [free_iff, (perm_insertSorted first taken).mem_iff, List.mem_cons, forall_eq_or_imp,
    hmiss, true_and]

section ClaimAll

variable {α : Type} (spanOf : α → Span)

/-- Items that lie from left to right are kept exactly if they are free of the
spans claimed before all of them. -/
theorem claimAll_eq_filter {claimed : SpanSet} (ho : claimed.Ordered) {items : List α}
    (hp : items.Pairwise fun left right => (spanOf left).stop ≤ (spanOf right).start) :
    (claimAll spanOf claimed items).1 =
      items.filter fun item => Free claimed.spans (spanOf item) := by
  induction items generalizing claimed with
  | nil => rfl
  | cons item items ih =>
    rw [List.pairwise_cons] at hp
    have hfree := claim?_isSome_iff ho (spanOf item)
    unfold claimAll
    split
    · rename_i hc
      have hn : ¬Free claimed.spans (spanOf item) := by
        rw [← hfree, hc]
        exact Bool.false_ne_true
      rw [ih ho hp.2, List.filter_cons_of_neg (by simpa using hn)]
    · rename_i claimed' hc
      have hy : Free claimed.spans (spanOf item) := by
        rw [← hfree, hc]
        rfl
      obtain ⟨-, rfl⟩ := (claim?_eq_some_iff ho).mp hc
      have hlater : ∀ other ∈ items,
          decide (Free (insertSorted (spanOf item) claimed.spans) (spanOf other)) =
            decide (Free claimed.spans (spanOf other)) := by
        intro other hm
        exact decide_eq_decide.mpr (free_insertSorted_iff (hp.1 other hm))
      rw [List.filter_cons_of_pos (by simpa using hy)]
      simp only [ih (ordered_claim? ho hc) hp.2, List.filter_congr hlater]

/-- Claiming items one by one keeps the spans in order. -/
theorem ordered_claimAll {claimed : SpanSet} (ho : claimed.Ordered) (items : List α) :
    (claimAll spanOf claimed items).2.Ordered := by
  induction items generalizing claimed with
  | nil => exact ho
  | cons item items ih =>
    unfold claimAll
    split
    · exact ih ho
    · rename_i claimed' hc
      exact ih (ordered_claim? ho hc)

/-- The spans claimed are those of before and those of the items kept. -/
theorem perm_claimAll {claimed : SpanSet} (ho : claimed.Ordered) (items : List α) :
    (claimAll spanOf claimed items).2.spans.Perm
      (claimed.spans ++ (claimAll spanOf claimed items).1.map spanOf) := by
  induction items generalizing claimed with
  | nil =>
    rw [claimAll, List.map_nil, List.append_nil]
  | cons item items ih =>
    unfold claimAll
    split
    · exact ih ho
    · rename_i claimed' hc
      have hrest := ih (ordered_claim? ho hc)
      obtain ⟨-, rfl⟩ := (claim?_eq_some_iff ho).mp hc
      have hinsert := perm_insertSorted (spanOf item) claimed.spans
      refine hrest.trans ((hinsert.append_right _).trans ?_)
      rw [List.map_cons, List.cons_append]
      exact List.perm_middle.symm

end ClaimAll

/-- Of two claimed spans none covers a byte of the other. -/
theorem Ordered.pairwise_not_covers {claimed : SpanSet} (ho : claimed.Ordered) :
    claimed.spans.Pairwise fun left right => ¬∃ byte, left.Covers byte ∧ right.Covers byte := by
  refine ho.apart.imp fun hl => ?_
  rintro ⟨byte, hleft, hright⟩
  have h0 := hleft.2
  have h1 := hright.1
  omega

end HeaderExports.SpanSet
