/-!
# Sets of code points as sorted ranges

A character property is a table of closed ranges of code points in
increasing order. Membership stops at the first range that begins above the
code point, so a low code point is decided after a few comparisons however
long the table is.
-/

namespace HeaderExports.Text

/-- A table of closed ranges of code points. -/
abbrev Ranges := List (Nat × Nat)

namespace Ranges

/-- The ranges are nonempty, disjoint and in increasing order. -/
def Sorted : Ranges → Prop
  | [] => True
  | range :: rest => range.1 ≤ range.2 ∧ (∀ later ∈ rest, range.2 < later.1) ∧ Sorted rest

/-- Whether a code point lies in one of the ranges of a sorted table. -/
def contains : Ranges → Nat → Bool
  | [], _ => false
  | range :: rest, point =>
    if point < range.1 then false else point ≤ range.2 || contains rest point

/-- A code point below every range is in none of them. -/
theorem contains_eq_false_of_lt {table : Ranges} {point : Nat}
    (below : ∀ range ∈ table, point < range.1) : contains table point = false := by
  cases table with
  | nil => rfl
  | cons range rest => simp [contains, below range (by simp)]

/-- On a sorted table the early exit loses nothing. -/
theorem contains_iff {table : Ranges} (sorted : Sorted table) (point : Nat) :
    contains table point = true ↔ ∃ range ∈ table, range.1 ≤ point ∧ point ≤ range.2 := by
  induction table with
  | nil => simp [contains]
  | cons range rest ih =>
    obtain ⟨_, above, tail⟩ := sorted
    by_cases low : point < range.1
    · have none : ∀ later ∈ rest, ¬ later.1 ≤ point := fun later member => by
        have := above later member
        omega
      simp only [contains, low, if_true, Bool.false_eq_true, List.mem_cons, exists_eq_or_imp,
        false_iff, not_or, not_exists, not_and]
      exact ⟨fun _ => by omega, fun later member start => absurd start (none later member)⟩
    · simp only [contains, low, if_false, Bool.or_eq_true, decide_eq_true_eq, List.mem_cons,
        exists_eq_or_imp, ih tail]
      have : range.1 ≤ point := by omega
      simp [this]

end Ranges

end HeaderExports.Text
