import HeaderExports.Pattern.Search

/-!
# Patterns that begin with a run

A pattern that begins with a run of characters can be read at the start of a
longer run whenever it can be read further on in it. So where such a pattern
cannot be read at all, the rest of the run need not be tried.
-/

namespace HeaderExports.Pattern

variable {σ : Type}

/-- The tests for the first and the other characters of the run that a pattern
begins with. -/
def leadingRun? : Pattern σ → Option ((Char → Bool) × (Char → Bool))
  | .seq (.one first) (.star (.one other)) => some (first, other)
  | .seq first _ => leadingRun? first
  | .mark _ body => leadingRun? body
  | _ => none

/-- The tests for the first and the other characters of the run that a pattern
begins with, and for the characters at which something optional in front of
the run may begin. -/
def opening? : Pattern σ → Option ((Char → Bool) × (Char → Bool) × (Char → Bool))
  | .seq (.alt (.seq (.one start) _) .empty) rest =>
    (leadingRun? rest).map fun tests => (tests.1, tests.2, start)
  | p => (leadingRun? p).map fun tests => (tests.1, tests.2, fun _ => false)

/-- Whether a pattern that cannot be read at a character cannot be read at a
later one of the same run. -/
def staysHopeless (p : Pattern σ) (c d : Char) : Bool :=
  match opening? p with
  | some (first, other, start) => first c && other d && !start d
  | none => false

/-- A pattern can be read at a place exactly if one of its words stands there. -/
theorem first?_isSome_iff (p : Pattern σ) (text : List Char) :
    (first? p text).isSome = true ↔
      ∃ word rest marks, text = word ++ rest ∧ Spells p word marks := by
  rw [first?_eq_head?, List.isSome_head?]
  constructor
  · intro nonempty
    obtain ⟨run, member⟩ := List.exists_mem_of_ne_nil _ nonempty
    obtain ⟨word, eq, spelled⟩ := spells_of_mem_runs member
    exact ⟨word, run.2, run.1, eq, spelled⟩
  · rintro ⟨word, rest, marks, rfl, spelled⟩
    exact List.ne_nil_of_mem (mem_runs_of_spells spelled rest)

/-- The words of a repeated single character are the texts that pass its test. -/
theorem spells_star_one {accepts : Char → Bool} {word : List Char}
    (all : ∀ c ∈ word, accepts c = true) : Spells (σ := σ) (.star (.one accepts)) word [] := by
  induction word with
  | nil => exact .starStop
  | cons c rest ih =>
    have more := ih fun d member => all d (List.mem_cons_of_mem c member)
    exact .starMore (u := [c]) (List.cons_ne_nil c []) (.one (all c List.mem_cons_self)) more

/-- All characters of a word of a repeated single character pass its test. -/
theorem forall_of_spells_star_one {accepts : Char → Bool} {word : List Char} {marks : Marks σ}
    (spelled : Spells (.star (.one accepts)) word marks) : ∀ c ∈ word, accepts c = true := by
  generalize eq : Pattern.star (.one accepts) = p at spelled
  induction spelled with
  | starStop => exact fun c member => nomatch member
  | @starMore body u v m n nonempty round more _ ih =>
    cases eq
    cases round with
    | one accepted =>
      intro c member
      rcases List.mem_append.mp member with inRound | inMore
      · rw [List.mem_singleton.mp inRound]
        exact accepted
      · exact ih rfl c inMore
  | _ => cases eq

/-- A word that begins with a run may begin with a longer one. -/
theorem spells_of_leadingRun {p : Pattern σ} {first other : Char → Bool}
    (leading : leadingRun? p = some (first, other)) {c : Char} (start : first c = true)
    {between word : List Char} {marks : Marks σ} (spelled : Spells p word marks)
    (passes : ∀ d ∈ between, other d = true) (head : ∀ d ∈ word.head?, other d = true) :
    word ≠ [] ∧ ∃ marks', Spells p (c :: between ++ word) marks' := by
  fun_induction leadingRun? p generalizing word marks with
  | case1 first' other' =>
    cases leading
    cases spelled with
    | seq left right =>
      cases left with
      | @one _ d accepted =>
        refine ⟨List.cons_ne_nil d _, [] ++ [], ?_⟩
        rw [List.cons_append]
        refine .seq (u := [c]) (.one start) (spells_star_one fun e member => ?_)
        rcases List.mem_append.mp member with inBetween | inWord
        · exact passes e inBetween
        · rcases List.mem_cons.mp inWord with rfl | inRest
          · exact head e (by simp)
          · exact forall_of_spells_star_one right e inRest
  | case2 front rest _ ih =>
    cases spelled with
    | @seq _ _ u v m n left right =>
      cases u with
      | nil => exact absurd rfl (ih leading left (by simp)).1
      | cons d u =>
        obtain ⟨nonempty, marks', longer⟩ := ih leading left (by simpa using head)
        refine ⟨by simp, marks' ++ n, ?_⟩
        rw [← List.append_assoc]
        exact .seq longer right
  | case3 label body ih =>
    cases spelled with
    | mark inner =>
      obtain ⟨nonempty, marks', longer⟩ := ih leading inner head
      exact ⟨nonempty, _, .mark longer⟩
  | case4 => cases leading

/-- A word whose first character starts nothing optional begins with the run,
and may begin with a longer one. -/
theorem spells_of_opening {p : Pattern σ} {first other start : Char → Bool}
    (opening : opening? p = some (first, other, start)) {c d : Char} (run : first c = true)
    {between word : List Char} {marks : Marks σ} (spelled : Spells p word marks)
    (passes : ∀ e ∈ between, other e = true)
    (head : ∀ e ∈ word.head?, e = d) (here : other d = true) (free : start d = false) :
    ∃ marks', Spells p (c :: between ++ word) marks' := by
  have passesHead : ∀ {u : List Char}, u = word → ∀ e ∈ u.head?, other e = true :=
    fun same e member => by
      subst same
      rw [head e member]
      exact here
  unfold opening? at opening
  split at opening
  · rename_i startTest more rest
    obtain ⟨tests, leading, eq⟩ := Option.map_eq_some_iff.mp opening
    cases eq
    cases spelled with
    | @seq _ _ u v m n left right =>
      cases left with
      | altLeft left =>
        cases left with
        | seq left _ =>
          cases left with
          | @one _ e accepted =>
            rw [head e (by simp), free] at accepted
            cases accepted
      | altRight left =>
        cases left
        obtain ⟨_, marks', longer⟩ :=
          spells_of_leadingRun leading run right passes (passesHead rfl)
        exact ⟨[] ++ marks', .seq (u := []) (.altRight .empty) longer⟩
  · obtain ⟨tests, leading, eq⟩ := Option.map_eq_some_iff.mp opening
    cases eq
    exact (spells_of_leadingRun leading run spelled passes (passesHead rfl)).2

/-- Where a pattern cannot be read, it cannot be read at the later characters
of the run that stay hopeless either. -/
theorem first?_eq_none_of_staysHopeless {p : Pattern σ} (c : Char) (between : List Char) {d : Char}
    {rest : List Char}
    (unreadable : first? p (c :: between ++ d :: rest) = none)
    (hopeless : ∀ e ∈ between ++ [d], staysHopeless p c e = true) :
    first? p (d :: rest) = none := by
  rw [← Option.not_isSome_iff_eq_none, first?_isSome_iff] at unreadable ⊢
  rintro ⟨word, tail, marks, eq, spelled⟩
  apply unreadable
  have atPlace := hopeless d (by simp)
  cases opening : opening? p with
  | none => simp [staysHopeless, opening] at atPlace
  | some tests =>
    obtain ⟨first, other, start⟩ := tests
    simp only [staysHopeless, opening, Bool.and_eq_true, Bool.not_eq_true'] at hopeless atPlace
    have head : ∀ e ∈ word.head?, e = d := fun e member => by
      cases word with
      | nil => cases member
      | cons e' word =>
        cases member
        exact (List.cons.inj eq).1.symm
    obtain ⟨marks', longer⟩ := spells_of_opening opening atPlace.1.1 spelled
      (fun e member => (hopeless e (List.mem_append_left _ member)).1.2) head atPlace.1.2 atPlace.2
    exact ⟨_, tail, marks', by rw [eq, List.append_assoc], longer⟩

end HeaderExports.Pattern
