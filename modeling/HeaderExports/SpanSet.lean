import HeaderExports.Text.Span

/-!
# Sets of disjoint spans

The parts of a text that have been claimed, kept in the order in which they
stand. A span is claimed only if it has a byte and none of its bytes is
claimed already.
-/

namespace HeaderExports

open Text (Span)

/-- Spans that have been claimed, from left to right. -/
structure SpanSet where
  /-- The spans by where they start. -/
  spans : List Span
  deriving DecidableEq, Repr

namespace SpanSet

/-- Nothing is claimed. -/
def empty : SpanSet := ⟨[]⟩

/-- The number of claimed spans. -/
def size (claimed : SpanSet) : Nat := claimed.spans.length

/-- Whether a span shares a byte with a claimed one. Spans that stop before it
starts are passed over, and the first one left decides. -/
def overlaps (claimed : SpanSet) (span : Span) : Bool :=
  match claimed.spans.dropWhile (·.stop ≤ span.start) with
  | [] => false
  | next :: _ => next.start < span.stop && span.start < span.stop

/-- Put a span in front of the first one that does not start before it. -/
def insertSorted (span : Span) : List Span → List Span
  | [] => [span]
  | next :: rest =>
    if next.start < span.start then next :: insertSorted span rest else span :: next :: rest

/-- Claim a span, if it has a byte and is free. -/
def claim? (claimed : SpanSet) (span : Span) : Option SpanSet :=
  if span.isEmpty || claimed.overlaps span then none else some ⟨insertSorted span claimed.spans⟩

/-- Go through items in order and keep those whose span is claimed. -/
def claimAll {α : Type} (spanOf : α → Span) : SpanSet → List α → List α × SpanSet
  | claimed, [] => ([], claimed)
  | claimed, item :: rest =>
    match claimed.claim? (spanOf item) with
    | none => claimAll spanOf claimed rest
    | some claimed' =>
      let more := claimAll spanOf claimed' rest
      (item :: more.1, more.2)

/-- Nothing has size zero. -/
theorem size_empty : empty.size = 0 := rfl

/-- A span is inserted once and nothing is lost. -/
theorem length_insertSorted (span : Span) (spans : List Span) :
    (insertSorted span spans).length = spans.length + 1 := by
  induction spans with
  | nil => rfl
  | cons next rest ih =>
    unfold insertSorted
    split <;> simp [ih]

/-- Every claim that succeeds counts. -/
theorem size_of_claim? {claimed claimed' : SpanSet} {span : Span}
    (success : claimed.claim? span = some claimed') : claimed'.size = claimed.size + 1 := by
  unfold claim? at success
  split at success
  · cases success
  · cases success
    exact length_insertSorted span claimed.spans

/-- The items kept are those that enlarge the set. -/
theorem size_claimAll {α : Type} (spanOf : α → Span) (claimed : SpanSet) (items : List α) :
    (claimAll spanOf claimed items).2.size =
      claimed.size + (claimAll spanOf claimed items).1.length := by
  induction items generalizing claimed with
  | nil => rfl
  | cons item rest ih =>
    unfold claimAll
    split
    · exact ih claimed
    · rename_i claimed' success
      simp only [ih, size_of_claim? success, List.length_cons]
      omega

end SpanSet

end HeaderExports
