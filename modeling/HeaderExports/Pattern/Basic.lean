/-!
# Patterns

A pattern describes texts and marks parts of them with labels. What it
describes is said twice: `Spells` is the language, a word together with the
parts marked in it, and `runs` lists every way to read a pattern off the
front of a text in order of preference. The earlier of two alternatives is
preferred, and one more round of a repetition is preferred to stopping.
-/

namespace HeaderExports

/-- A pattern whose marked parts carry labels of type `σ`. -/
inductive Pattern (σ : Type) where
  /-- The empty word. -/
  | empty
  /-- One character that passes the test. -/
  | one (accepts : Char → Bool)
  /-- One pattern behind another. -/
  | seq (first second : Pattern σ)
  /-- Either pattern, the first one preferred. -/
  | alt (first second : Pattern σ)
  /-- As many rounds as possible, none included. -/
  | star (body : Pattern σ)
  /-- A pattern whose word is marked with a label. -/
  | mark (label : σ) (body : Pattern σ)

/-- The marked parts of a word, in the order in which they end. -/
abbrev Marks (σ : Type) := List (σ × List Char)

namespace Pattern

variable {σ : Type}

/-- A pattern or nothing, the pattern preferred. -/
def optional (body : Pattern σ) : Pattern σ := .alt body .empty

/-- At least one round. -/
def plus (body : Pattern σ) : Pattern σ := .seq body (.star body)

/-- Patterns one behind the other. -/
def chain : List (Pattern σ) → Pattern σ
  | [] => .empty
  | first :: rest => .seq first (chain rest)

/-- Exactly the given characters. -/
def exactly (word : List Char) : Pattern σ := chain (word.map fun c => .one (· == c))

/-- Exactly the given text. -/
def lit (text : String) : Pattern σ := exactly text.toList

/-- The words of a pattern and the parts marked in them. A round of a
repetition is never empty. -/
inductive Spells : Pattern σ → List Char → Marks σ → Prop where
  | empty : Spells .empty [] []
  | one {accepts : Char → Bool} {c : Char} (accepted : accepts c = true) :
      Spells (.one accepts) [c] []
  | seq {first second : Pattern σ} {u v : List Char} {m n : Marks σ}
      (left : Spells first u m) (right : Spells second v n) :
      Spells (.seq first second) (u ++ v) (m ++ n)
  | altLeft {first second : Pattern σ} {u : List Char} {m : Marks σ} (left : Spells first u m) :
      Spells (.alt first second) u m
  | altRight {first second : Pattern σ} {u : List Char} {m : Marks σ} (right : Spells second u m) :
      Spells (.alt first second) u m
  | starStop {body : Pattern σ} : Spells (.star body) [] []
  | starMore {body : Pattern σ} {u v : List Char} {m n : Marks σ} (nonempty : u ≠ [])
      (round : Spells body u m) (more : Spells (.star body) v n) :
      Spells (.star body) (u ++ v) (m ++ n)
  | mark {label : σ} {body : Pattern σ} {u : List Char} {m : Marks σ} (inner : Spells body u m) :
      Spells (.mark label body) u (m ++ [(label, u)])

/-- A reading of a pattern off the front of a text: the parts it marks and
the text behind it. -/
abbrev Run (σ : Type) := Marks σ × List Char

/-- The characters that a reading took, given the text behind it. -/
def taken (text rest : List Char) : List Char := text.take (text.length - rest.length)

/-- What was put in front of a text is what a reading up to that text took. -/
@[simp] theorem taken_append (word rest : List Char) : taken (word ++ rest) rest = word := by
  simp [taken]

/-- Readings of at most `limit` rounds, every round taking something. -/
def rounds (step : List Char → List (Run σ)) : Nat → List Char → List (Run σ)
  | 0, text => [([], text)]
  | limit + 1, text =>
    ((step text).filter (·.2.length < text.length)).flatMap
      (fun run => (rounds step limit run.2).map fun more => (run.1 ++ more.1, more.2)) ++
      [([], text)]

/-- All readings of a pattern off the front of a text, the preferred one
first. A text of `n` characters bounds a repetition to `n` rounds. -/
def runs : Pattern σ → List Char → List (Run σ)
  | .empty, text => [([], text)]
  | .one _, [] => []
  | .one accepts, c :: rest => if accepts c then [([], rest)] else []
  | .seq first second, text =>
    (runs first text).flatMap fun run =>
      (runs second run.2).map fun more => (run.1 ++ more.1, more.2)
  | .alt first second, text => runs first text ++ runs second text
  | .star body, text => rounds (runs body) text.length text
  | .mark label body, text =>
    (runs body text).map fun run => (run.1 ++ [(label, taken text run.2)], run.2)

/-- Every round listed is a word of the repetition in front of the rest. -/
theorem spells_of_mem_rounds {body : Pattern σ}
    (sound : ∀ {text : List Char} {run : Run σ}, run ∈ runs body text →
      ∃ word, text = word ++ run.2 ∧ Spells body word run.1)
    {limit : Nat} {text : List Char} {run : Run σ} (member : run ∈ rounds (runs body) limit text) :
    ∃ word, text = word ++ run.2 ∧ Spells (.star body) word run.1 := by
  induction limit generalizing text run with
  | zero =>
    simp only [rounds, List.mem_singleton] at member
    subst member
    exact ⟨[], rfl, .starStop⟩
  | succ limit ih =>
    simp only [rounds, List.mem_append, List.mem_flatMap, List.mem_filter, decide_eq_true_eq,
      List.mem_map, List.mem_singleton] at member
    rcases member with ⟨first, ⟨mem, shorter⟩, more, memMore, rfl⟩ | rfl
    · obtain ⟨u, eq, spelled⟩ := sound mem
      obtain ⟨v, eq', spelled'⟩ := ih memMore
      have nonempty : u ≠ [] := by
        rintro rfl
        simp [eq] at shorter
      exact ⟨u ++ v, by rw [eq, eq', List.append_assoc], .starMore nonempty spelled spelled'⟩
    · exact ⟨[], rfl, .starStop⟩

/-- A reading takes a word of the pattern and marks its parts. -/
theorem spells_of_mem_runs {p : Pattern σ} {text : List Char} {run : Run σ}
    (member : run ∈ runs p text) : ∃ word, text = word ++ run.2 ∧ Spells p word run.1 := by
  induction p generalizing text run with
  | empty =>
    simp only [runs, List.mem_singleton] at member
    subst member
    exact ⟨[], rfl, .empty⟩
  | one accepts =>
    cases text with
    | nil => simp [runs] at member
    | cons c rest =>
      by_cases accepted : accepts c = true
      · simp only [runs, accepted, if_true, List.mem_singleton] at member
        subst member
        exact ⟨[c], rfl, .one accepted⟩
      · simp [runs, accepted] at member
  | seq first second ihFirst ihSecond =>
    simp only [runs, List.mem_flatMap, List.mem_map] at member
    obtain ⟨left, memLeft, right, memRight, rfl⟩ := member
    obtain ⟨u, eq, spelled⟩ := ihFirst memLeft
    obtain ⟨v, eq', spelled'⟩ := ihSecond memRight
    exact ⟨u ++ v, by rw [eq, eq', List.append_assoc], .seq spelled spelled'⟩
  | alt first second ihFirst ihSecond =>
    simp only [runs, List.mem_append] at member
    rcases member with mem | mem
    · obtain ⟨u, eq, spelled⟩ := ihFirst mem
      exact ⟨u, eq, .altLeft spelled⟩
    · obtain ⟨u, eq, spelled⟩ := ihSecond mem
      exact ⟨u, eq, .altRight spelled⟩
  | star body ih =>
    simp only [runs] at member
    exact spells_of_mem_rounds (fun mem => ih mem) member
  | mark label body ih =>
    simp only [runs, List.mem_map] at member
    obtain ⟨inner, mem, rfl⟩ := member
    obtain ⟨u, eq, spelled⟩ := ih mem
    refine ⟨u, eq, ?_⟩
    rw [eq, taken_append]
    exact .mark spelled

/-- Once the limit allows one round for every character, it has no effect. -/
theorem rounds_eq_of_le {step : List Char → List (Run σ)} {limit limit' : Nat} {text : List Char}
    (enough : text.length ≤ limit) (enough' : text.length ≤ limit') :
    rounds step limit text = rounds step limit' text := by
  induction limit generalizing limit' text with
  | zero =>
    obtain rfl := List.eq_nil_of_length_eq_zero (Nat.le_zero.mp enough)
    cases limit' <;> simp [rounds]
  | succ limit ih =>
    cases limit' with
    | zero =>
      obtain rfl := List.eq_nil_of_length_eq_zero (Nat.le_zero.mp enough')
      simp [rounds]
    | succ limit' =>
      simp only [rounds, List.append_cancel_right_eq]
      rw [List.flatMap_def, List.flatMap_def]
      refine congrArg List.flatten (List.map_congr_left fun run member => ?_)
      have shorter : run.2.length < text.length := by simpa using (List.mem_filter.mp member).2
      rw [ih (by omega) (by omega : run.2.length ≤ limit')]

/-- Every word of a pattern in front of a text is among the readings. -/
theorem mem_runs_of_spells {p : Pattern σ} {word : List Char} {marks : Marks σ}
    (spelled : Spells p word marks) (rest : List Char) :
    (marks, rest) ∈ runs p (word ++ rest) := by
  induction spelled generalizing rest with
  | empty => simp [runs]
  | one accepted => simp [runs, accepted]
  | @seq first second u v m n _ _ ihLeft ihRight =>
    simp only [runs, List.mem_flatMap, List.mem_map, List.append_assoc]
    exact ⟨(m, v ++ rest), ihLeft (v ++ rest), (n, rest), ihRight rest, rfl⟩
  | altLeft _ ih => exact List.mem_append_left _ (ih rest)
  | altRight _ ih => exact List.mem_append_right _ (ih rest)
  | starStop =>
    simp only [runs, List.nil_append]
    cases rest.length <;> simp [rounds]
  | @starMore body u v m n nonempty _ _ ihRound ihMore =>
    have positive : 0 < u.length := List.length_pos_iff.mpr nonempty
    have more := ihMore rest
    simp only [runs] at more ⊢
    obtain ⟨limit, eq⟩ : ∃ limit, (u ++ v ++ rest).length = limit + 1 :=
      ⟨(u ++ v ++ rest).length - 1, by simp only [List.length_append]; omega⟩
    rw [eq, rounds, List.mem_append]
    refine Or.inl (List.mem_flatMap.mpr ⟨(m, v ++ rest), List.mem_filter.mpr ⟨?_, ?_⟩, ?_⟩)
    · rw [List.append_assoc]
      exact ihRound (v ++ rest)
    · simp only [List.length_append, decide_eq_true_eq]
      omega
    · refine List.mem_map.mpr ⟨(n, rest), ?_, rfl⟩
      simp only [List.length_append] at eq
      rwa [rounds_eq_of_le (by simp only [List.length_append]; omega) (Nat.le_refl _)]
  | @mark label body u m _ ih =>
    simp only [runs, List.mem_map]
    exact ⟨(m, rest), ih rest, by rw [taken_append]⟩

/-- The readings of a pattern are its words in front of the text behind them. -/
theorem mem_runs_iff {p : Pattern σ} {text : List Char} {run : Run σ} :
    run ∈ runs p text ↔ ∃ word, text = word ++ run.2 ∧ Spells p word run.1 := by
  constructor
  · exact spells_of_mem_runs
  · rintro ⟨word, rfl, spelled⟩
    exact mem_runs_of_spells spelled run.2

end Pattern

end HeaderExports
