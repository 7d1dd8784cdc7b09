import HeaderExports.Pattern.LeadingRun
import HeaderExports.Text.Span

/-!
# Scanning a text for a pattern

A scan goes through a text from left to right. At every place it takes the
preferred reading, if there is one, and goes on behind it. A reading that
takes nothing counts as well, but not directly behind the reading before it.
Where nothing can be read the scan passes over the places that stay hopeless,
which changes nothing but the time it takes.
-/

namespace HeaderExports

open Text (Span byteLength)

/-- A word of a pattern found in a text. -/
structure Occurrence (σ : Type) where
  /-- Where the word stands. -/
  span : Span
  /-- The parts marked in it. -/
  marks : Marks σ

namespace Occurrence

variable {σ : Type} [DecidableEq σ]

/-- The part marked last with a label, if any is. -/
def part? (found : Occurrence σ) (label : σ) : Option (List Char) :=
  (found.marks.reverse.find? (·.1 = label)).map (·.2)

end Occurrence

namespace Pattern

variable {σ : Type}

/-- Scan from a place on. The first `skipped` characters are passed over, and
`fresh` says whether the place is not directly behind a reading. -/
def scanFrom (p : Pattern σ) (place skipped : Nat) (fresh : Bool) : List Char → List (Occurrence σ)
  | [] =>
    match first? p [] with
    | some run => if fresh then [⟨⟨place, place⟩, run.1⟩] else []
    | none => []
  | c :: rest =>
    let behind := place + c.utf8Size
    match skipped with
    | more + 1 => scanFrom p behind more fresh rest
    | 0 =>
      match first? p (c :: rest) with
      | none => scanFrom p behind (rest.takeWhile (staysHopeless p c)).length true rest
      | some run =>
        let word := taken (c :: rest) run.2
        let found : Occurrence σ := ⟨⟨place, place + byteLength word⟩, run.1⟩
        match word.length with
        | 0 => if fresh then found :: scanFrom p behind 0 true rest
               else scanFrom p behind 0 true rest
        | more + 1 => found :: scanFrom p behind more false rest

/-- All words of a pattern that a scan of the whole text finds, in order. -/
def scan (p : Pattern σ) (text : List Char) : List (Occurrence σ) := scanFrom p 0 0 true text

/-- A scan in front of a character takes the preferred reading, if there is one. -/
theorem scanFrom_cons (p : Pattern σ) (place : Nat) (fresh : Bool) (c : Char) (rest : List Char) :
    scanFrom p place 0 fresh (c :: rest) =
      match first? p (c :: rest) with
      | none =>
        scanFrom p (place + c.utf8Size) (rest.takeWhile (staysHopeless p c)).length true rest
      | some run =>
        let word := taken (c :: rest) run.2
        let found : Occurrence σ := ⟨⟨place, place + byteLength word⟩, run.1⟩
        match word.length with
        | 0 => if fresh then found :: scanFrom p (place + c.utf8Size) 0 true rest
               else scanFrom p (place + c.utf8Size) 0 true rest
        | more + 1 => found :: scanFrom p (place + c.utf8Size) more false rest := rfl

/-- Skipped characters are passed over and only counted. -/
theorem scanFrom_skip (p : Pattern σ) (place : Nat) (fresh : Bool) (word rest : List Char) :
    scanFrom p place word.length fresh (word ++ rest) =
      scanFrom p (place + byteLength word) 0 fresh rest := by
  induction word generalizing place with
  | nil => rfl
  | cons c word ih =>
    rw [byteLength, ← Nat.add_assoc]
    exact ih (place + c.utf8Size)

/-- Places at which nothing can be read may be passed over. -/
theorem scanFrom_skip_of_none (p : Pattern σ) (word rest : List Char)
    (unreadable : ∀ i < word.length, first? p ((word ++ rest).drop i) = none) (place : Nat) :
    scanFrom p place word.length true (word ++ rest) = scanFrom p place 0 true (word ++ rest) := by
  generalize limit : (word ++ rest).length = n
  induction n using Nat.strongRecOn generalizing word rest place with
  | ind n ih =>
    cases word with
    | nil => rfl
    | cons c word =>
      have here : first? p (c :: (word ++ rest)) = none := unreadable 0 (by simp)
      have shorter : (word ++ rest).length < n := by
        rw [← limit]
        simp
      have later : ∀ i < word.length, first? p ((word ++ rest).drop i) = none := fun i below => by
        simpa using unreadable (i + 1) (by simpa using below)
      rw [List.cons_append, scanFrom_cons, here]
      refine (ih _ shorter word rest later (place + c.utf8Size) rfl).trans ?_
      generalize eq : word ++ rest = text at here shorter
      have split := List.takeWhile_append_dropWhile (p := staysHopeless p c) (l := text)
      have hopeless : ∀ i < (text.takeWhile (staysHopeless p c)).length,
          first? p (text.drop i) = none := fun i below => by
        have inText : i < text.length := Nat.lt_of_lt_of_le below
          (List.IsPrefix.length_le (List.takeWhile_prefix _))
        rw [List.drop_eq_getElem_cons inText]
        refine first?_eq_none_of_staysHopeless c (text.take i) ?_ ?_
        · rw [List.cons_append, ← List.drop_eq_getElem_cons inText, List.take_append_drop]
          exact here
        · rw [List.take_append_getElem inText]
          intro e member
          have inRun : e ∈ text.takeWhile (staysHopeless p c) := by
            rw [← split, List.take_append_of_le_length (by omega)] at member
            exact List.mem_of_mem_take member
          exact List.all_eq_true.mp List.all_takeWhile e inRun
      have := ih _ shorter (text.takeWhile (staysHopeless p c))
        (text.dropWhile (staysHopeless p c)) (by rw [split]; exact hopeless)
        (place + c.utf8Size) (by rw [split])
      rw [split] at this
      exact this.symm

/-- Where nothing can be read the scan moves on by one character. -/
theorem scanFrom_cons_of_none {p : Pattern σ} {c : Char} {rest : List Char}
    (unreadable : first? p (c :: rest) = none) (place : Nat) (fresh : Bool) :
    scanFrom p place 0 fresh (c :: rest) = scanFrom p (place + c.utf8Size) 0 true rest := by
  have passed := scanFrom_skip_of_none p [c] rest
    (fun i below => by
      obtain rfl : i = 0 := by simpa using below
      exact unreadable) place
  have same : scanFrom p place 0 fresh (c :: rest) = scanFrom p place 0 true (c :: rest) := by
    rw [scanFrom_cons, scanFrom_cons, unreadable]
  rw [same]
  exact passed.symm

/-- Where a word can be read the scan reports it and goes on behind it. -/
theorem scanFrom_of_first? {p : Pattern σ} {word rest : List Char} {marks : Marks σ}
    (nonempty : word ≠ []) (read : first? p (word ++ rest) = some (marks, rest)) (place : Nat)
    (fresh : Bool) :
    scanFrom p place 0 fresh (word ++ rest) =
      ⟨⟨place, place + byteLength word⟩, marks⟩ ::
        scanFrom p (place + byteLength word) 0 false rest := by
  cases word with
  | nil => exact absurd rfl nonempty
  | cons c word =>
    have same := taken_append (c :: word) rest
    rw [List.cons_append] at read same ⊢
    simp only [scanFrom_cons, read, same, List.length_cons, scanFrom_skip, byteLength,
      Nat.add_assoc]

end Pattern

end HeaderExports
