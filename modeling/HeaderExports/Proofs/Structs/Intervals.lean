import HeaderExports.Proofs.Structs.Exclusive

/-!
# A set of spans is an exact set of disjoint intervals

Spans are claimed one by one, in any order, empty and inverted ones among them.
What a set holds is exactly what has been accepted, and what it accepts next is
decided by the bytes of that alone. Each look-up divides the spans by a condition
on one of their ends. On the sets that claims lead to, the spans that meet the
condition stand in front of all others, so that it does not matter how the place
between them is searched.
-/

namespace HeaderExports.SpanSet

open Text (Span)

/-! ## Divided spans -/

/-- Spans are divided by a condition into those that meet it and, behind all of
them, those that do not. -/
structure Divides (condition : Span → Prop) (front back : List Span) (spans : List Span) :
    Prop where
  /-- Nothing is left out. -/
  whole : spans = front ++ back
  /-- The spans in front meet the condition. -/
  meets : ∀ span ∈ front, condition span
  /-- The spans behind do not. -/
  fails : ∀ span ∈ back, ¬condition span

/-- Spans are divided by a condition that is met by every span in front of one that
meets it. -/
theorem exists_divides {condition : Span → Prop} {spans : List Span}
    (hm : spans.Pairwise fun left right => condition right → condition left) :
    ∃ front back, Divides condition front back spans := by
  induction spans with
  | nil => exact ⟨[], [], rfl, List.forall_mem_nil _, List.forall_mem_nil _⟩
  | cons span spans ih =>
    obtain ⟨hfirst, hrest⟩ := List.pairwise_cons.mp hm
    by_cases hspan : condition span
    · obtain ⟨front, back, hwhole, hmeets, hfails⟩ := ih hrest
      exact ⟨span :: front, back, congrArg _ hwhole,
        List.forall_mem_cons.mpr ⟨hspan, hmeets⟩, hfails⟩
    · refine ⟨[], span :: spans, rfl, List.forall_mem_nil _, ?_⟩
      exact List.forall_mem_cons.mpr ⟨hspan, fun other ho hother => hspan (hfirst other ho hother)⟩

/-- Where spans are divided by their stops, the first one behind decides on an
overlap. -/
theorem overlaps_of_divides {claimed : SpanSet} {span : Span} {front back : List Span}
    (hd : Divides (·.stop ≤ span.start) front back claimed.spans) :
    claimed.overlaps span =
      back.head?.any fun next => next.start < span.stop && span.start < span.stop := by
  have hfront : ∀ other ∈ front, decide (other.stop ≤ span.start) = true :=
    fun other hm => decide_eq_true (hd.meets other hm)
  rw [overlaps, hd.whole, List.dropWhile_append_of_pos hfront]
  cases back with
  | nil => rfl
  | cons next back =>
    have hnext := hd.fails next List.mem_cons_self
    rw [List.dropWhile_cons_of_neg (by simpa using hnext), List.head?_cons, Option.any_some]

/-- Where spans are divided by their starts, a span is inserted. -/
theorem insertSorted_of_divides {span : Span} {spans front back : List Span}
    (hd : Divides (·.start < span.start) front back spans) :
    insertSorted span spans = front ++ span :: back := by
  obtain ⟨rfl, hmeets, hfails⟩ := hd
  induction front with
  | nil =>
    cases back with
    | nil => rfl
    | cons next back =>
      rw [List.nil_append, insertSorted, if_neg (hfails next List.mem_cons_self), List.nil_append]
  | cons other front ih =>
    obtain ⟨hother, hrest⟩ := List.forall_mem_cons.mp hmeets
    rw [List.cons_append, insertSorted, if_pos hother, ih hrest, List.cons_append]

namespace Ordered

variable {claimed : SpanSet} (ho : claimed.Ordered)

include ho

/-- Of ordered spans the one in front starts and stops first. -/
theorem pairwise_lt :
    claimed.spans.Pairwise fun left right => left.start < right.start ∧ left.stop < right.stop := by
  refine List.Pairwise.imp_of_mem (fun {left right} hl hr hapart => ?_) ho.apart
  have hleft := ho.inhabited left hl
  have hright := ho.inhabited right hr
  omega

/-- Ordered spans are divided by where they stop. -/
theorem exists_divides_stop (place : ℕ) :
    ∃ front back, Divides (·.stop ≤ place) front back claimed.spans :=
  exists_divides (ho.pairwise_lt.imp fun hlt hle => Nat.le_trans (Nat.le_of_lt hlt.2) hle)

/-- Ordered spans are divided by where they start. -/
theorem exists_divides_start (place : ℕ) :
    ∃ front back, Divides (·.start < place) front back claimed.spans :=
  exists_divides (ho.pairwise_lt.imp fun hlt hlt' => Nat.lt_trans hlt.1 hlt')

end Ordered

/-! ## Sequences of claims -/

section Claims

variable {α : Type} (spanOf : α → Span)

/-- Items are claimed behind others on the set that these lead to. -/
theorem claimAll_append (claimed : SpanSet) (items more : List α) :
    claimAll spanOf claimed (items ++ more) =
      ((claimAll spanOf claimed items).1 ++
          (claimAll spanOf (claimAll spanOf claimed items).2 more).1,
        (claimAll spanOf (claimAll spanOf claimed items).2 more).2) := by
  induction items generalizing claimed with
  | nil => rfl
  | cons item items ih =>
    rw [List.cons_append, claimAll, claimAll]
    cases claimed.claim? (spanOf item) with
    | none => exact ih claimed
    | some claimed' => simp only [ih claimed', List.cons_append]

/-- One more item is kept if its claim succeeds, and otherwise nothing changes. -/
theorem claimAll_concat (claimed : SpanSet) (items : List α) (item : α) :
    claimAll spanOf claimed (items ++ [item]) =
      let before := claimAll spanOf claimed items
      (before.2.claim? (spanOf item)).elim before fun claimed' => (before.1 ++ [item], claimed') := by
  rw [claimAll_append]
  simp only [claimAll]
  cases (claimAll spanOf claimed items).2.claim? (spanOf item) with
  | none => rw [List.append_nil, Option.elim_none]
  | some claimed' => rfl

end Claims

/-- Whatever spans have been claimed, a set holds exactly the accepted ones, each with
a byte, in the order in which they start, and no two with a byte in common. One more
claim succeeds exactly if its span has a byte and shares none with an accepted one;
then the span is accepted too, and otherwise nothing changes. A span overlaps the set
exactly if a byte of it lies in an accepted span. The claimed spans are divided by
where they stop and by where they start, and at every such division the two operations
find the neighbour that decides and the place to insert. -/
theorem claimAll_exact (calls : List Span) :
    let accepted := (claimAll id empty calls).1
    let claimed := (claimAll id empty calls).2
    (∀ span,
      ((claimed.claim? span).isSome = true ↔
        (∃ byte, span.Covers byte) ∧
          ∀ other ∈ accepted, ¬∃ byte, other.Covers byte ∧ span.Covers byte) ∧
      claimAll id empty (calls ++ [span]) =
        (claimed.claim? span).elim (accepted, claimed)
          fun claimed' => (accepted ++ [span], claimed')) ∧
    (claimed.spans.Perm accepted ∧ claimed.size = accepted.length ∧
      claimed.spans.Pairwise (fun left right => left.start < right.start) ∧
      claimed.spans.Pairwise
        (fun left right => ¬∃ byte, left.Covers byte ∧ right.Covers byte)) ∧
    (∀ span, claimed.overlaps span = true ↔
      ∃ byte, span.Covers byte ∧ ∃ other ∈ accepted, other.Covers byte) ∧
    ∀ span,
      ((∃ front back, Divides (·.stop ≤ span.start) front back claimed.spans) ∧
        ∀ front back, Divides (·.stop ≤ span.start) front back claimed.spans →
          claimed.overlaps span = back.head?.any fun next =>
            next.start < span.stop && span.start < span.stop) ∧
      ((∃ front back, Divides (·.start < span.start) front back claimed.spans) ∧
        ∀ front back, Divides (·.start < span.start) front back claimed.spans →
          insertSorted span claimed.spans = front ++ span :: back) := by
  intro accepted claimed
  have ho : claimed.Ordered := ordered_claimAll id ordered_empty calls
  have hperm : claimed.spans.Perm accepted := by
    have h := perm_claimAll id ordered_empty calls
    rwa [List.map_id] at h
  refine ⟨fun span => ⟨?_, claimAll_concat id empty calls span⟩,
    ⟨hperm, hperm.length_eq, ho.pairwise_lt.imp And.left, ho.pairwise_not_covers⟩,
    fun span => ?_, fun span => ⟨⟨ho.exists_divides_stop span.start, fun front back hd =>
      overlaps_of_divides hd⟩, ho.exists_divides_start span.start, fun front back hd =>
      insertSorted_of_divides hd⟩⟩
  · rw [claim?_isSome_iff ho]
    exact free_congr hperm span
  · have hmeets (other : Span) : other.meets span = true ↔
        ∃ byte, span.Covers byte ∧ other.Covers byte := by
      rw [Span.meets_iff]
      exact exists_congr fun byte => and_comm
    rw [overlaps_iff ho]
    simp only [hmeets, hperm.mem_iff]
    constructor
    · rintro ⟨other, hm, byte, hspan, hother⟩
      exact ⟨byte, hspan, other, hm, hother⟩
    · rintro ⟨byte, hspan, other, hm, hother⟩
      exact ⟨other, hm, byte, hspan, hother⟩

/-- Neighbours, overlapping spans, an empty span and an inverted one are claimed. Then
the gap in front of the first accepted span is free, up to its first byte. -/
theorem claimAll_exact_of_neighbours :
    let calls : List Span := [⟨10, 20⟩, ⟨30, 40⟩, ⟨15, 25⟩, ⟨5, 5⟩, ⟨20, 30⟩, ⟨9, 3⟩, ⟨0, 50⟩]
    let claimed := (claimAll id empty calls).2
    ((claimAll id empty calls).1 = [⟨10, 20⟩, ⟨30, 40⟩, ⟨20, 30⟩] ∧
      claimed.spans = [⟨10, 20⟩, ⟨20, 30⟩, ⟨30, 40⟩]) ∧
    ((claimed.claim? ⟨0, 10⟩).isSome = true ∧
      Divides (·.start < 0) [] [⟨10, 20⟩, ⟨20, 30⟩, ⟨30, 40⟩] claimed.spans ∧
      insertSorted ⟨0, 10⟩ claimed.spans = [⟨0, 10⟩, ⟨10, 20⟩, ⟨20, 30⟩, ⟨30, 40⟩]) ∧
    Divides (·.stop ≤ 20) [⟨10, 20⟩] [⟨20, 30⟩, ⟨30, 40⟩] claimed.spans ∧
      claimed.overlaps ⟨20, 21⟩ = true := by
  intro calls claimed
  have haccepted : (claimAll id empty calls).1 = [⟨10, 20⟩, ⟨30, 40⟩, ⟨20, 30⟩] := by decide
  have hspans : claimed.spans = [⟨10, 20⟩, ⟨20, 30⟩, ⟨30, 40⟩] := by decide
  have hstart : Divides (·.start < 0) [] [⟨10, 20⟩, ⟨20, 30⟩, ⟨30, 40⟩] claimed.spans :=
    ⟨hspans, List.forall_mem_nil _, fun span _ => Nat.not_lt_zero span.start⟩
  have hstop : Divides (·.stop ≤ 20) [⟨10, 20⟩] [⟨20, 30⟩, ⟨30, 40⟩] claimed.spans :=
    ⟨hspans, by simp, by simp⟩
  obtain ⟨hclaims, -, -, hdivided⟩ := claimAll_exact calls
  have hfree : SpanSet.Free [⟨10, 20⟩, ⟨30, 40⟩, ⟨20, 30⟩] ⟨0, 10⟩ := by decide
  have hclaim := (hclaims ⟨0, 10⟩).1.mpr (haccepted.symm ▸ hfree)
  exact ⟨⟨haccepted, hspans⟩, ⟨hclaim, hstart, (hdivided ⟨0, 10⟩).2.2 _ _ hstart⟩, hstop,
    (hdivided ⟨20, 21⟩).1.2 _ _ hstop⟩

end HeaderExports.SpanSet
