import HeaderExports.Proofs.Pattern.Division
import HeaderExports.Proofs.Pattern.Preferred

/-!
# What stands around a word of a scan

A scan comes to a word in one of three ways: from the start of the text, past a
character at which nothing can be read, or from the word before. So what stands in
front of a word is told by where else its pattern could have been read. What stands
behind a word is told by the end of its pattern: where that is a run of characters
of one class, no further one follows.
-/

namespace HeaderExports.Pattern

variable {σ α : Type} {p q : Pattern σ} {text : α → List Char} {parts : α → Marks σ}

/-! ## In front of a word -/

/-- How a scan comes to a place, with the text in front of it and the text behind. -/
inductive Reached (p : Pattern σ) : List Char → List Char → Prop
  /-- The place is the start of the text. -/
  | start (rest : List Char) : Reached p [] rest
  /-- A character in front of it has been passed over. -/
  | passed (front : List Char) {c : Char} {rest : List Char}
      (unreadable : first? p (c :: rest) = none) : Reached p (front ++ [c]) rest
  /-- A word in front of it has been read. -/
  | behind (front : List Char) {word rest : List Char} {marks : Marks σ} (nonempty : word ≠ [])
      (read : first? p (word ++ rest) = some (marks, rest)) : Reached p (front ++ word) rest

section Scan

variable (hempty : ∀ marks, ¬Spells p [] marks)

include hempty

/-- What a scan reports from a place on is read at a place that it comes to. -/
theorem exists_reached_of_mem_scanFrom {front rest : List Char} {place : ℕ} {fresh : Bool}
    {found : Occurrence σ} (hr : Reached p front rest)
    (hm : found ∈ scanFrom p place 0 fresh rest) :
    ∃ front' word behind, front ++ rest = front' ++ (word ++ behind) ∧
      first? p (word ++ behind) = some (found.marks, behind) ∧
      Reached p front' (word ++ behind) := by
  induction hl : rest.length using Nat.strongRecOn generalizing rest front place fresh with
  | ind n ih =>
    cases rest with
    | nil =>
      rw [scanFrom, first?_nil_eq_none hempty] at hm
      exact absurd hm List.not_mem_nil
    | cons c rest =>
      have hshort : rest.length < n := by rw [← hl]; exact Nat.lt_succ_self _
      cases step p place fresh c rest with
      | pass unreadable onward =>
        rw [onward] at hm
        obtain ⟨front', word, behind, he, hread, hreached⟩ :=
          ih _ hshort (.passed front unreadable) hm rfl
        rw [List.append_assoc, List.singleton_append] at he
        exact ⟨front', word, behind, he, hread, hreached⟩
      | empty marks read _ =>
        obtain ⟨word, hne, he, -⟩ := exists_of_first? hempty read
        exact absurd (List.self_eq_append_left.mp he) hne
      | word word tail marks nonempty split read onward =>
        rw [onward] at hm
        rw [split] at hr read ⊢
        rcases List.mem_cons.mp hm with rfl | hm
        · exact ⟨front, word, tail, rfl, read, hr⟩
        · have hlength := congrArg List.length split
          have hpos := List.length_pos_iff.mpr nonempty
          rw [List.length_append, hl] at hlength
          obtain ⟨front', word', behind, he, hread, hreached⟩ :=
            ih _ (by omega) (.behind front nonempty read) hm rfl
          rw [List.append_assoc] at he
          exact ⟨front', word', behind, he, hread, hreached⟩

end Scan

/-- What a scan reports is a text written from a form, the preferred reading at a place
that the scan comes to. -/
theorem Writes.exists_reached (hw : Writes p text parts) (hn : ∀ form, text form ≠ [])
    {whole : List Char} {found : Occurrence σ} (hm : found ∈ p.scan whole) :
    ∃ front form behind, whole = front ++ (text form ++ behind) ∧ found.marks = parts form ∧
      first? p (text form ++ behind) = some (parts form, behind) ∧
      Reached p front (text form ++ behind) := by
  obtain ⟨front, word, behind, he, hread, hreached⟩ :=
    exists_reached_of_mem_scanFrom (hw.not_spells_nil hn) (.start whole) hm
  obtain ⟨word', hword, hs⟩ := spells_of_first? hread
  obtain rfl := List.append_cancel_right hword
  obtain ⟨form, rfl, hmarks⟩ := hw.exists_of_spells hs
  replace hmarks : found.marks = parts form := hmarks
  rw [hmarks] at hread
  exact ⟨front, form, behind, he, hmarks, hread, hreached⟩

/-! ## Behind a word -/

/-- A pattern that is read to the last character of a class. -/
def Greedy (inside : Char → Bool) (p : Pattern σ) : Prop :=
  ∀ text run, first? p text = some run → ∀ c ∈ run.2.head?, inside c = false

/-- Of two patterns in a row the second one is read as it is preferred behind a word of
the first one. -/
theorem exists_of_first?_seq {text : List Char} {run : Run σ}
    (hr : first? (.seq p q) text = some run) :
    ∃ word rest marks marks', text = word ++ rest ∧ Spells p word marks ∧
      first? q rest = some (marks', run.2) ∧ run.1 = marks ++ marks' := by
  rw [first?, attempt, attempt_eq] at hr
  obtain ⟨left, hm, hleft⟩ := List.exists_of_findSome?_eq_some hr
  obtain ⟨more, hmore, rfl⟩ := Option.map_eq_some_iff.mp hleft
  obtain ⟨word, he, hs⟩ := spells_of_mem_runs hm
  exact ⟨word, left.2, left.1, more.1, he, hs, hmore, rfl⟩

/-- The last of the patterns in a row is read as it is alone. -/
theorem first?_last (p : Pattern σ) (text : List Char) : first? (chain [p]) text = first? p text := by
  simp only [first?, chain, attempt]

/-- Something optional is read as it is preferred, or it is passed over. -/
theorem first?_optional_cases {text : List Char} {run : Run σ}
    (hr : first? (optional p) text = some run) : first? p text = some run ∨ run = ([], text) := by
  rw [first?_eq_head?, optional, runs, List.head?_append, ← first?_eq_head?] at hr
  cases hp : first? p text with
  | some run' => exact .inl (by rwa [hp] at hr)
  | none =>
    rw [hp] at hr
    exact .inr (Option.some_inj.mp hr.symm)

/-- A repeated character is read to the last one of its class. -/
theorem greedy_star_one (inside : Char → Bool) :
    Greedy (σ := σ) inside (.star (.one inside)) := by
  intro text run hr
  have hword : ∀ c ∈ text.takeWhile inside, inside c = true :=
    List.all_eq_true.mp List.all_takeWhile
  have hrest : ∀ c ∈ (text.dropWhile inside).head?, inside c = false := by
    intro c hc
    have hend := List.head?_dropWhile_not inside text
    rwa [hc] at hend
  have hread := (prefers_star_one (σ := σ) hword hrest).first?_eq
  rw [List.takeWhile_append_dropWhile, hr] at hread
  rwa [Option.some_inj.mp hread]

namespace Greedy

variable {inside : Char → Bool}

/-- Two patterns in a row are read as far as the second one. -/
theorem seq (hq : Greedy inside q) (p : Pattern σ) : Greedy inside (.seq p q) := by
  intro text run hr
  obtain ⟨-, rest, -, marks', -, -, hread, -⟩ := exists_of_first?_seq hr
  exact hq rest (marks', run.2) hread

/-- The last of the patterns in a row is read as far as it is alone. -/
theorem last (hp : Greedy inside p) : Greedy inside (chain [p]) := by
  intro text run hr
  exact hp text run (first?_last p text ▸ hr)

/-- A marked pattern is read as far as without the mark. -/
theorem mark (hp : Greedy inside p) (label : σ) : Greedy inside (.mark label p) := by
  intro text run hr
  rw [first?_eq_head?, runs, List.head?_map, ← first?_eq_head?] at hr
  obtain ⟨inner, hinner, rfl⟩ := Option.map_eq_some_iff.mp hr
  exact hp text inner hinner

end Greedy

/-- A character repeated at least once is read to the last one of its class. -/
theorem greedy_plus_one (inside : Char → Bool) : Greedy (σ := σ) inside (plus (.one inside)) :=
  (greedy_star_one inside).seq _

end HeaderExports.Pattern
