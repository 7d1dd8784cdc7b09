import HeaderExports.Pattern.Basic

/-!
# Searching for the preferred reading

`attempt` goes through the readings of a pattern in order of preference and
stops at the first one that what follows accepts. It lists no more readings
than it tries, and `attempt_eq` says that it answers as if all were listed.
-/

namespace HeaderExports.Pattern

variable {σ : Type}

/-- Try the texts behind all runs of accepted characters, the longest run
first. The texts met so far wait in `behind`. -/
def longestFirst (accepts : Char → Bool) (next : List Char → Option (Run σ)) :
    List Char → List (List Char) → Option (Run σ)
  | [], behind => ([] :: behind).findSome? next
  | c :: rest, behind =>
    if accepts c then longestFirst accepts next rest ((c :: rest) :: behind)
    else ((c :: rest) :: behind).findSome? next

/-- Try at most `limit` more rounds, every round taking something. -/
def moreRounds (step : List Char → (List Char → Option (Run σ)) → Option (Run σ))
    (next : List Char → Option (Run σ)) : Nat → List Char → Option (Run σ)
  | 0, text => next text
  | limit + 1, text =>
    match step text fun rest =>
      if rest.length < text.length then moreRounds step next limit rest else none with
    | some run => some run
    | none => next text

/-- The test of a pattern for one unmarked character. -/
def single? : Pattern σ → Option (Char → Bool)
  | .one accepts => some accepts
  | _ => none

/-- The first reading, in order of preference, whose remaining text `next`
accepts, with the marks of `next` behind its own. -/
def attempt : Pattern σ → List Char → (List Char → Option (Run σ)) → Option (Run σ)
  | .empty, text, next => next text
  | .one _, [], _ => none
  | .one accepts, c :: rest, next => if accepts c then next rest else none
  | .seq first second, text, next => attempt first text fun rest => attempt second rest next
  | .alt first second, text, next =>
    match attempt first text next with
    | some run => some run
    | none => attempt second text next
  | .star body, text, next =>
    match single? body with
    | some accepts => longestFirst accepts next text []
    | none => moreRounds (attempt body) next text.length text
  | .mark label body, text, next =>
    attempt body text fun rest =>
      (next rest).map fun run => ((label, taken text rest) :: run.1, run.2)

/-- The preferred reading of a pattern off the front of a text. -/
def first? (p : Pattern σ) (text : List Char) : Option (Run σ) :=
  attempt p text fun rest => some ([], rest)

/-- Whether a whole text is a word of a pattern. -/
def accepts (p : Pattern σ) (text : List Char) : Bool :=
  (attempt p text fun rest => if rest.isEmpty then some ([], rest) else none).isSome

/-- Continue a reading by what `next` makes of its remaining text. -/
def continueWith (next : List Char → Option (Run σ)) (run : Run σ) : Option (Run σ) :=
  (next run.2).map fun more => (run.1 ++ more.1, more.2)

@[simp] theorem continueWith_nil (next : List Char → Option (Run σ)) (text : List Char) :
    continueWith next ([], text) = next text := by
  simp [continueWith]

/-- Marks in front of a reading stay in front of its continuations. -/
theorem findSome?_map_append (next : List Char → Option (Run σ)) (marks : Marks σ)
    (readings : List (Run σ)) :
    (readings.map fun more => (marks ++ more.1, more.2)).findSome? (continueWith next) =
      (readings.findSome? (continueWith next)).map fun run => (marks ++ run.1, run.2) := by
  induction readings with
  | nil => rfl
  | cons run rest ih =>
    simp only [List.map_cons, List.findSome?_cons, ih]
    cases h : next run.2 <;> simp [continueWith, h]

/-- The readings of two patterns in a row are tried one inside the other. -/
theorem findSome?_flatMap (next : List Char → Option (Run σ)) (second : List Char → List (Run σ))
    (readings : List (Run σ)) :
    (readings.flatMap fun run =>
        (second run.2).map fun more => (run.1 ++ more.1, more.2)).findSome? (continueWith next) =
      readings.findSome?
        (continueWith fun rest => (second rest).findSome? (continueWith next)) := by
  induction readings with
  | nil => rfl
  | cons run rest ih =>
    simp only [List.flatMap_cons, List.findSome?_append, List.findSome?_cons, ih,
      findSome?_map_append]
    cases h : (second run.2).findSome? (continueWith next) <;> simp [continueWith, h]

/-- The texts behind all runs of accepted characters, the longest run first. -/
theorem longestFirst_eq {accepts : Char → Bool} {next : List Char → Option (Run σ)}
    (text : List Char) (behind : List (List Char)) (limit : Nat) (enough : text.length ≤ limit) :
    longestFirst accepts next text behind =
      ((rounds (runs (.one accepts)) limit text).findSome? (continueWith next)).or
        (behind.findSome? next) := by
  induction limit generalizing text behind with
  | zero =>
    obtain rfl := List.eq_nil_of_length_eq_zero (Nat.le_zero.mp enough)
    simp only [longestFirst, rounds, List.findSome?_cons, List.findSome?_nil, continueWith_nil]
    cases next [] <;> rfl
  | succ limit ih =>
    cases text with
    | nil =>
      simp only [longestFirst, rounds, runs, List.filter_nil, List.flatMap_nil, List.nil_append,
        List.findSome?_cons, List.findSome?_nil, continueWith_nil]
      cases next [] <;> rfl
    | cons c rest =>
      have shorter : rest.length ≤ limit := by simpa using enough
      by_cases accepted : accepts c = true
      · simp only [longestFirst, accepted, if_true, ih rest _ shorter, rounds, runs,
          List.length_cons, List.filter_cons, Nat.lt_succ_self, decide_true, List.filter_nil,
          List.flatMap_cons, List.flatMap_nil, List.append_nil, List.nil_append,
          List.findSome?_append, List.findSome?_cons, List.findSome?_nil, continueWith_nil]
        rw [show (fun more : Run σ => (more.1, more.2)) = id from rfl, List.map_id,
          Option.or_assoc]
        cases next (c :: rest) <;> rfl
      · simp only [longestFirst, accepted, rounds, runs, List.filter_nil, List.flatMap_nil,
          List.nil_append, List.findSome?_cons, List.findSome?_nil, continueWith_nil,
          Bool.false_eq_true, if_false]
        cases next (c :: rest) <;> rfl

/-- Trying more rounds answers as if all rounds were listed. -/
theorem moreRounds_eq {body : Pattern σ} {next : List Char → Option (Run σ)}
    (inner : ∀ (text : List Char) (after : List Char → Option (Run σ)),
      attempt body text after = (runs body text).findSome? (continueWith after))
    (limit : Nat) (text : List Char) :
    moreRounds (attempt body) next limit text =
      (rounds (runs body) limit text).findSome? (continueWith next) := by
  induction limit generalizing text with
  | zero => simp [moreRounds, rounds]
  | succ limit ih =>
    simp only [moreRounds, rounds, inner, ih, List.findSome?_append, findSome?_flatMap,
      List.findSome?_cons, List.findSome?_nil, continueWith_nil]
    have same : (runs body text).findSome? (continueWith fun rest =>
          if rest.length < text.length then
            (rounds (runs body) limit rest).findSome? (continueWith next) else none) =
        ((runs body text).filter (·.2.length < text.length)).findSome? (continueWith fun rest =>
          (rounds (runs body) limit rest).findSome? (continueWith next)) := by
      induction runs body text with
      | nil => rfl
      | cons run others ihRuns =>
        have head : ∀ (after : List Char → Option (Run σ)) (l : List (Run σ)),
            (run :: l).findSome? (continueWith after) =
              (continueWith after run).or (l.findSome? (continueWith after)) := fun after l => by
          rw [List.findSome?_cons]
          cases continueWith after run <;> rfl
        by_cases shorter : run.2.length < text.length
        · rw [List.filter_cons, if_pos (by simpa using shorter), head, head, ihRuns]
          simp only [continueWith, shorter, if_true]
        · rw [List.filter_cons, if_neg (by simpa using shorter), head, ihRuns]
          simp only [continueWith, shorter, if_false, Option.map_none, Option.none_or]
    rw [same]
    cases ((runs body text).filter (·.2.length < text.length)).findSome?
        (continueWith fun rest => (rounds (runs body) limit rest).findSome? (continueWith next)) <;>
      cases next text <;> rfl

/-- Trying readings one by one answers as if all of them were listed. -/
theorem attempt_eq (p : Pattern σ) (text : List Char) (next : List Char → Option (Run σ)) :
    attempt p text next = (runs p text).findSome? (continueWith next) := by
  induction p generalizing text next with
  | empty => simp [attempt, runs]
  | one accepts =>
    cases text with
    | nil => rfl
    | cons c rest => by_cases accepted : accepts c = true <;> simp [attempt, runs, accepted]
  | seq first second ihFirst ihSecond =>
    simp only [attempt, runs, ihFirst, ihSecond, findSome?_flatMap]
  | alt first second ihFirst ihSecond =>
    simp only [attempt, runs, ihFirst, ihSecond, List.findSome?_append]
    cases (runs first text).findSome? (continueWith next) <;> rfl
  | star body ih =>
    simp only [attempt, runs]
    cases body with
    | one accepts =>
      simp only [single?, longestFirst_eq text [] text.length (Nat.le_refl _),
        List.findSome?_nil, Option.or_none]
    | _ =>
      simp only [single?]
      exact moreRounds_eq (fun text after => ih text after) text.length text
  | mark label body ih =>
    simp only [attempt, runs, ih]
    induction runs body text with
    | nil => rfl
    | cons run others ihRuns =>
      simp only [List.map_cons, List.findSome?_cons, ihRuns]
      cases h : next run.2 <;> simp [continueWith, h]

/-- The search finds the reading that is listed first. -/
theorem first?_eq_head? (p : Pattern σ) (text : List Char) :
    first? p text = (runs p text).head? := by
  rw [first?, attempt_eq]
  cases runs p text <;> simp [continueWith]

/-- A whole text is accepted exactly if it is a word of the pattern. -/
theorem accepts_iff (p : Pattern σ) (text : List Char) :
    accepts p text = true ↔ ∃ marks, Spells p text marks := by
  rw [accepts, attempt_eq, List.findSome?_isSome_iff]
  constructor
  · rintro ⟨run, member, found⟩
    obtain ⟨word, rfl, spelled⟩ := spells_of_mem_runs member
    cases h : run.2 with
    | nil => exact ⟨run.1, by simpa using spelled⟩
    | cons c rest => simp [continueWith, h] at found
  · rintro ⟨marks, spelled⟩
    have member := mem_runs_of_spells spelled []
    rw [List.append_nil] at member
    exact ⟨(marks, []), member, by simp [continueWith]⟩

end HeaderExports.Pattern
