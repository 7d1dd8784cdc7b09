import HeaderExports.Proofs.Text.Runs
import HeaderExports.Text.OneLine

/-!
# What is on one line stays as it is

Putting a text on one line works piece by piece, as long as no run of spaces
is cut. So a text without blanks is kept, and so is one whose blanks are single
spaces.
-/

namespace HeaderExports.Text

/-- A character that is not the first of two spaces is kept. -/
theorem halveSpaces_cons {c : Char} {rest : List Char}
    (hc : ¬(c = ' ' ∧ rest.head? = some ' ')) :
    halveSpaces (c :: rest) = c :: halveSpaces rest := by
  rw [halveSpaces]
  rintro rest' rfl rfl
  exact hc ⟨rfl, rfl⟩

/-- Spaces are paired piece by piece where no run of them is cut. -/
theorem halveSpaces_append {u v : List Char}
    (hj : u.getLast? ≠ some ' ' ∨ v.head? ≠ some ' ') :
    halveSpaces (u ++ v) = halveSpaces u ++ halveSpaces v := by
  fun_induction halveSpaces u with
  | case1 rest ih =>
    rw [List.cons_append, List.cons_append, halveSpaces, List.cons_append]
    cases rest with
    | nil =>
      rw [List.nil_append]
      rfl
    | cons d rest =>
      rw [ih (by simpa only [List.getLast?_cons_cons] using hj)]
  | case2 c rest hc ih =>
    cases rest with
    | nil =>
      rw [List.cons_append, List.nil_append, halveSpaces_cons]
      · rfl
      · rintro ⟨rfl, hv⟩
        rcases hj with h | h
        · exact h rfl
        · exact h hv
    | cons d rest =>
      rw [List.cons_append, halveSpaces_cons, ih (by simpa only [List.getLast?_cons_cons] using hj),
        List.cons_append]
      rintro ⟨rfl, hd⟩
      exact hc rest rfl (by rw [Option.some.inj hd])
  | case3 => rfl

/-- A text is put on one line piece by piece where no run of spaces is cut. -/
theorem oneLine_append {u v : List Char} (hj : u.getLast? ≠ some ' ' ∨ v.head? ≠ some ' ') :
    oneLine (u ++ v) = oneLine u ++ oneLine v := by
  rw [oneLine, halveSpaces_append hj, List.filter_append]
  rfl

/-- What is deleted when a text is put on one line is blank. -/
theorem isBlank_of_isLineBreaking {c : Char} (hc : isLineBreaking c = true) : isBlank c = true := by
  simp only [isLineBreaking, Bool.or_eq_true, beq_iff_eq] at hc
  rcases hc with (rfl | rfl) | rfl <;> decide

/-- Spaces are halved exactly where two of them stand side by side. -/
theorem halveSpaces_eq_self_iff {u : List Char} : halveSpaces u = u ↔ ¬[' ', ' '] <:+: u := by
  fun_induction halveSpaces u with
  | case1 rest ih =>
    refine iff_of_false (fun h => ?_) (not_not.mpr (List.prefix_append [' ', ' '] rest).isInfix)
    have hlength := congrArg List.length h
    have hle := (halveSpaces_sublist rest).length_le
    simp only [List.length_cons] at hlength
    omega
  | case2 c rest hc ih =>
    have hfront : ¬[' ', ' '] <+: c :: rest := by
      rintro ⟨rest', he⟩
      obtain ⟨rfl, rfl⟩ := List.cons.inj he
      exact hc rest' rfl rfl
    rw [List.infix_cons_iff, or_iff_right hfront, List.cons.injEq, and_iff_right rfl, ih]
  | case3 => exact iff_of_true rfl fun h => by cases List.infix_nil.mp h

/-- Nothing is deleted from a text without tabs and line ends. -/
theorem forall_isLineBreaking_iff {u : List Char} :
    (∀ c ∈ u, isLineBreaking c = false) ↔ '\t' ∉ u ∧ '\r' ∉ u ∧ '\n' ∉ u := by
  simp only [isLineBreaking, Bool.or_eq_false_iff, beq_eq_false_iff_ne, and_assoc,
    forall_and, ← List.forall_mem_ne']

/-- A text is on one line exactly if it holds no tab, no line end and no two
spaces side by side. -/
theorem oneLine_eq_self_iff {u : List Char} :
    oneLine u = u ↔ (∀ c ∈ u, isLineBreaking c = false) ∧ ¬[' ', ' '] <:+: u := by
  constructor
  · intro h
    have hhalved : halveSpaces u = u := by
      refine (halveSpaces_sublist u).antisymm ?_
      have hle : (oneLine u).Sublist (halveSpaces u) := List.filter_sublist
      rwa [h] at hle
    exact ⟨fun c hc => isLineBreaking_of_mem_oneLine (h.symm ▸ hc),
      halveSpaces_eq_self_iff.mp hhalved⟩
  · rintro ⟨hbreak, hspaces⟩
    rw [oneLine, halveSpaces_eq_self_iff.mpr hspaces, List.filter_eq_self]
    exact fun c hc => by rw [hbreak c hc, Bool.not_false]

/-- A text without blanks is kept. -/
theorem oneLine_of_not_blank {u : List Char} (hu : ∀ c ∈ u, ¬isBlank c = true) :
    oneLine u = u := by
  refine oneLine_eq_self_iff.mpr ⟨fun c hc => ?_, fun h => ?_⟩
  · rw [Bool.eq_false_iff]
    exact fun hbreak => hu c hc (isBlank_of_isLineBreaking hbreak)
  · exact hu ' ' (h.subset List.mem_cons_self) (by decide)

/-- Spaces are halved, but not lost. -/
theorem mem_halveSpaces {c : Char} {u : List Char} : c ∈ halveSpaces u ↔ c ∈ u := by
  fun_induction halveSpaces u with
  | case1 rest ih => simp [ih]
  | case2 d rest hd ih => simp [ih]
  | case3 => rfl

/-- On one line stand the characters of a text that are not deleted. -/
theorem mem_oneLine {c : Char} {u : List Char} :
    c ∈ oneLine u ↔ c ∈ u ∧ isLineBreaking c = false := by
  rw [oneLine, List.mem_filter, mem_halveSpaces, Bool.not_eq_true']

/-- A blank is lost when spaces are halved only where another one is left. -/
theorem dropBlanks_halveSpaces (u : List Char) : dropBlanks (halveSpaces u) = dropBlanks u := by
  have hspace (rest : List Char) : dropBlanks (' ' :: rest) = dropBlanks rest :=
    List.filter_cons_of_neg (by decide)
  fun_induction halveSpaces u with
  | case1 rest ih => rw [hspace, hspace, hspace, ih]
  | case2 c rest hc ih => rw [dropBlanks, List.filter_cons, ← dropBlanks, ih, dropBlanks,
      dropBlanks, List.filter_cons]
  | case3 => rfl

/-- Without its blanks a text is the same on one line and as it was written. -/
theorem dropBlanks_oneLine (u : List Char) : dropBlanks (oneLine u) = dropBlanks u := by
  have hfilter : dropBlanks (oneLine u) = dropBlanks (halveSpaces u) := by
    rw [dropBlanks, oneLine, List.filter_filter]
    refine List.filter_congr fun c _ => ?_
    cases hc : isLineBreaking c with
    | false => rw [Bool.not_false, Bool.and_true]
    | true => rw [isBlank_of_isLineBreaking hc]; rfl
  rw [hfilter, dropBlanks_halveSpaces]

/-- A text that is kept when it is put on one line, whatever stands behind it. -/
def Kept (u : List Char) : Prop := ∀ rest, oneLine (u ++ rest) = u ++ oneLine rest

/-- A kept text is on one line. -/
theorem Kept.oneLine_eq {u : List Char} (hu : Kept u) : oneLine u = u := by
  have hnil : oneLine [] = [] := rfl
  have h := hu []
  rwa [List.append_nil, hnil, List.append_nil] at h

/-- Kept texts are kept one behind the other. -/
theorem Kept.append {u v : List Char} (hu : Kept u) (hv : Kept v) : Kept (u ++ v) := by
  intro rest
  rw [List.append_assoc, hu, hv, List.append_assoc]

/-- Any number of kept texts are kept one behind the other. -/
theorem kept_flatMap {α : Type} {text : α → List Char} (ht : ∀ x, Kept (text x)) (xs : List α) :
    Kept (xs.flatMap text) := by
  induction xs with
  | nil => exact fun rest => rfl
  | cons x xs ih =>
    rw [List.flatMap_cons]
    exact (ht x).append ih

/-- A text without blanks is kept. -/
theorem kept_of_not_blank {u : List Char} (hu : ∀ c ∈ u, ¬isBlank c = true) : Kept u := by
  intro rest
  rw [oneLine_append, oneLine_of_not_blank hu]
  refine .inl fun h => ?_
  exact hu ' ' (List.mem_of_getLast? h) (by decide)

/-- A word with a single space in front is kept. -/
theorem kept_space_cons {u : List Char} (hne : u ≠ []) (hu : ∀ c ∈ u, ¬isBlank c = true) :
    Kept (' ' :: u) := by
  intro rest
  have hhead : (u ++ rest).head? ≠ some ' ' := by
    obtain ⟨c, more, rfl⟩ := List.exists_cons_of_ne_nil hne
    intro h
    cases h
    exact hu ' ' List.mem_cons_self (by decide)
  have hspace : oneLine ([' '] ++ (u ++ rest)) = oneLine [' '] ++ oneLine (u ++ rest) :=
    oneLine_append (.inr hhead)
  rw [kept_of_not_blank hu] at hspace
  exact hspace

end HeaderExports.Text
