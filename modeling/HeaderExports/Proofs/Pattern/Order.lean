import HeaderExports.Pattern.Scan
import Mathlib.Tactic.Common

/-!
# What a scan reports lies from left to right

A scan takes one of three steps at a place: nothing can be read, something
empty is read, or a word is read and passed over. The steps are said once, and
every law of a whole scan follows from them by induction on the text that is
left. Occurrences of one scan lie one behind the other and share no byte.
-/

namespace HeaderExports.Pattern

open Text (byteLength byteLength_append)

variable {σ : Type}

/-- The preferred reading takes a word of the pattern. -/
theorem spells_of_first? {p : Pattern σ} {text : List Char} {run : Run σ}
    (hr : first? p text = some run) : ∃ word, text = word ++ run.2 ∧ Spells p word run.1 := by
  rw [first?_eq_head?] at hr
  exact spells_of_mem_runs (List.mem_of_mem_head? hr)

/-- Where the preferred reading is empty the scan reports it, unless it stands
directly behind another one, and moves on by one character. -/
theorem scanFrom_of_first?_empty {p : Pattern σ} {c : Char} {rest : List Char} {marks : Marks σ}
    (hr : first? p (c :: rest) = some (marks, c :: rest)) (place : ℕ) (fresh : Bool) :
    scanFrom p place 0 fresh (c :: rest) =
      (if fresh then [⟨⟨place, place⟩, marks⟩] else []) ++
        scanFrom p (place + c.utf8Size) 0 true rest := by
  have hword := taken_append [] (c :: rest)
  rw [List.nil_append] at hword
  cases fresh <;>
    simp only [scanFrom_cons, hr, hword, List.length_nil, byteLength, Nat.add_zero, if_true,
      Bool.false_eq_true, if_false, List.cons_append, List.nil_append]

/-- The three steps of a scan in front of a character. -/
inductive Step (p : Pattern σ) (place : ℕ) (fresh : Bool) (c : Char) (rest : List Char) : Prop
  /-- Nothing can be read here. -/
  | pass (unreadable : first? p (c :: rest) = none)
      (onward : scanFrom p place 0 fresh (c :: rest) =
        scanFrom p (place + c.utf8Size) 0 true rest)
  /-- Something empty is read here. -/
  | empty (marks : Marks σ) (read : first? p (c :: rest) = some (marks, c :: rest))
      (onward : scanFrom p place 0 fresh (c :: rest) =
        (if fresh then [⟨⟨place, place⟩, marks⟩] else []) ++
          scanFrom p (place + c.utf8Size) 0 true rest)
  /-- A word is read here, and the scan goes on behind it. -/
  | word (word tail : List Char) (marks : Marks σ) (nonempty : word ≠ [])
      (split : c :: rest = word ++ tail) (read : first? p (c :: rest) = some (marks, tail))
      (onward : scanFrom p place 0 fresh (c :: rest) =
        ⟨⟨place, place + byteLength word⟩, marks⟩ ::
          scanFrom p (place + byteLength word) 0 false tail)

/-- A scan takes one of its three steps. -/
theorem step (p : Pattern σ) (place : ℕ) (fresh : Bool) (c : Char) (rest : List Char) :
    Step p place fresh c rest := by
  cases hr : first? p (c :: rest) with
  | none => exact .pass hr (scanFrom_cons_of_none hr place fresh)
  | some run =>
    obtain ⟨marks, tail⟩ := run
    obtain ⟨word, hsplit, -⟩ := spells_of_first? hr
    simp only at hsplit
    cases word with
    | nil =>
      rw [List.nil_append] at hsplit
      subst hsplit
      exact .empty marks hr (scanFrom_of_first?_empty hr place fresh)
    | cons d word =>
      have hread := hr
      rw [hsplit] at hread
      have honward := scanFrom_of_first? (List.cons_ne_nil d word) hread place fresh
      rw [← hsplit] at honward
      exact .word (d :: word) tail marks (List.cons_ne_nil d word) hsplit hr honward

/-- At the end of the text a scan reports at most something empty. -/
theorem span_eq_of_mem_scanFrom_nil {p : Pattern σ} {place skipped : ℕ} {fresh : Bool}
    {found : Occurrence σ} (hm : found ∈ scanFrom p place skipped fresh []) :
    found.span = ⟨place, place⟩ := by
  rw [scanFrom] at hm
  split at hm
  · split_ifs at hm
    · rw [List.mem_singleton.mp hm]
    · cases hm
  · cases hm

/-- A scan reports nothing in front of the place at which it stands and nothing
behind its text, and every span runs forward. -/
theorem bounds_of_mem_scanFrom {p : Pattern σ} {place : ℕ} {fresh : Bool} {text : List Char}
    {found : Occurrence σ} (hm : found ∈ scanFrom p place 0 fresh text) :
    place ≤ found.span.start ∧ found.span.start ≤ found.span.stop ∧
      found.span.stop ≤ place + byteLength text := by
  induction hn : text.length using Nat.strongRecOn generalizing text place fresh with
  | ind n ih =>
    cases text with
    | nil =>
      rw [span_eq_of_mem_scanFrom_nil hm]
      exact ⟨Nat.le_refl _, Nat.le_refl _, Nat.le_add_right _ _⟩
    | cons c rest =>
      have hshort : rest.length < n := by rw [← hn]; exact Nat.lt_succ_self _
      have hbytes : byteLength (c :: rest) = c.utf8Size + byteLength rest := rfl
      cases step p place fresh c rest with
      | pass _ onward =>
        rw [onward] at hm
        have hrest := ih _ hshort hm rfl
        exact ⟨by omega, hrest.2.1, by omega⟩
      | empty marks _ onward =>
        rw [onward, List.mem_append] at hm
        rcases hm with hm | hm
        · split_ifs at hm
          · rw [List.mem_singleton.mp hm]
            exact ⟨Nat.le_refl _, Nat.le_refl _, Nat.le_add_right _ _⟩
          · cases hm
        · have hrest := ih _ hshort hm rfl
          exact ⟨by omega, hrest.2.1, by omega⟩
      | word word tail marks nonempty split _ onward =>
        rw [split, byteLength_append]
        rw [onward, List.mem_cons] at hm
        rcases hm with rfl | hm
        · exact ⟨Nat.le_refl _, Nat.le_add_right _ _, by simp only; omega⟩
        · have hlength := congrArg List.length split
          have hword := List.length_pos_iff.mpr nonempty
          rw [List.length_append, hn] at hlength
          have hrest := ih _ (by omega) hm rfl
          exact ⟨by omega, hrest.2.1, by omega⟩

/-- The occurrences that a scan reports from a place on lie from left to
right. -/
theorem pairwise_scanFrom (p : Pattern σ) (place : ℕ) (fresh : Bool) (text : List Char) :
    (scanFrom p place 0 fresh text).Pairwise fun left right =>
      left.span.stop ≤ right.span.start := by
  induction hn : text.length using Nat.strongRecOn generalizing text place fresh with
  | ind n ih =>
    cases text with
    | nil =>
      rw [scanFrom]
      split
      · split_ifs
        · exact List.pairwise_singleton _ _
        · exact List.Pairwise.nil
      · exact List.Pairwise.nil
    | cons c rest =>
      have hshort : rest.length < n := by rw [← hn]; exact Nat.lt_succ_self _
      cases step p place fresh c rest with
      | pass _ onward =>
        rw [onward]
        exact ih _ hshort _ _ rest rfl
      | empty marks _ onward =>
        have hrest := ih _ hshort (place + c.utf8Size) true rest rfl
        rw [onward, List.pairwise_append]
        refine ⟨?_, hrest, fun left hl right hr => ?_⟩
        · split_ifs
          · exact List.pairwise_singleton _ _
          · exact List.Pairwise.nil
        · have hbounds := bounds_of_mem_scanFrom hr
          split_ifs at hl
          · rw [List.mem_singleton.mp hl]
            exact Nat.le_trans (Nat.le_add_right _ _) hbounds.1
          · cases hl
      | word word tail marks nonempty split _ onward =>
        have hlength := congrArg List.length split
        have hword := List.length_pos_iff.mpr nonempty
        rw [List.length_append, hn] at hlength
        have hrest := ih _ (by omega) (place + byteLength word) false tail rfl
        rw [onward, List.pairwise_cons]
        exact ⟨fun right hr => (bounds_of_mem_scanFrom hr).1, hrest⟩

/-- The occurrences of a pattern in a text lie from left to right. -/
theorem pairwise_scan (p : Pattern σ) (text : List Char) :
    (p.scan text).Pairwise fun left right => left.span.stop ≤ right.span.start :=
  pairwise_scanFrom p 0 true text

end HeaderExports.Pattern
