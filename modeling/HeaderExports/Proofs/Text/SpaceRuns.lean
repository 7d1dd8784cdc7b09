import HeaderExports.Proofs.Text.OneLine
import Mathlib.Algebra.Ring.Parity
import Mathlib.Data.List.DropRight
import Mathlib.Data.List.SplitBy

/-!
# What putting a text on one line comes to

Spaces are paired from the left, so what becomes of a run of spaces depends on its
length alone: half of it stays, rounded up. Runs that a tab or a line end keeps
apart are shortened each for itself and may meet afterwards, which is why a second
pass may change the text again. Where two texts are joined inside a run, a space is
saved exactly if both parts of the run are odd.
-/

namespace HeaderExports.Text

/-! ## Runs of spaces -/

/-- Whether two characters side by side belong to one run: both are spaces, or
neither is. -/
def sameRun (c d : Char) : Bool := (c == ' ') == (d == ' ')

/-- A text divided into its longest runs of spaces and what stands between them. -/
def spaceRuns (text : List Char) : List (List Char) := text.splitBy sameRun

/-- A run of spaces shortened to half of its length, rounded up. What is no run of
spaces stays as it is. -/
def halveRun (run : List Char) : List Char :=
  if run.head? = some ' ' then List.replicate ((run.length + 1) / 2) ' ' else run

/-- Half of a run of spaces is left, rounded up. -/
theorem halveSpaces_replicate : ∀ k : ℕ,
    halveSpaces (List.replicate k ' ') = List.replicate ((k + 1) / 2) ' '
  | 0 => rfl
  | 1 => rfl
  | k + 2 => by
    have hhalf : (k + 2 + 1) / 2 = (k + 1) / 2 + 1 := by omega
    rw [List.replicate_succ, List.replicate_succ, halveSpaces, halveSpaces_replicate k, hhalf,
      List.replicate_succ]

/-- A run consists of spaces or has none. -/
theorem run_cases {run : List Char} (hr : run.IsChain fun c d => sameRun c d = true) :
    run = List.replicate run.length ' ' ∨ ' ' ∉ run := by
  cases run with
  | nil => exact .inr List.not_mem_nil
  | cons c rest =>
    have htrans : Trans (fun c d => sameRun c d = true) (fun c d => sameRun c d = true)
        (fun c d => sameRun c d = true) :=
      ⟨fun h h' => beq_iff_eq.mpr ((beq_iff_eq.mp h).trans (beq_iff_eq.mp h'))⟩
    have hsame : ∀ d ∈ c :: rest, (c == ' ') = (d == ' ') := by
      have hpairs := List.isChain_iff_pairwise.mp hr
      exact List.forall_mem_cons.mpr
        ⟨rfl, fun d hd => beq_iff_eq.mp ((List.pairwise_cons.mp hpairs).1 d hd)⟩
    cases hc : c == ' ' with
    | true =>
      left
      exact List.eq_replicate_iff.mpr ⟨rfl, fun d hd => beq_iff_eq.mp ((hsame d hd).symm.trans hc)⟩
    | false =>
      right
      intro hm
      rw [hsame ' ' hm] at hc
      exact absurd hc (by decide)

/-- Halving spaces shortens a run. -/
theorem halveSpaces_run {run : List Char} (hr : run.IsChain fun c d => sameRun c d = true) :
    halveSpaces run = halveRun run := by
  rcases run_cases hr with hspaces | hnone
  · rw [hspaces, halveSpaces_replicate, halveRun, List.length_replicate]
    cases run.length <;> rfl
  · have hhead : run.head? ≠ some ' ' := fun h => hnone (List.mem_of_head? h)
    rw [halveRun, if_neg hhead, halveSpaces_eq_self_iff]
    exact fun h => hnone (h.subset List.mem_cons_self)

/-- Runs that end where others begin are shortened each for itself. -/
theorem halveSpaces_flatten {runs : List (List Char)}
    (hr : ∀ run ∈ runs, run.IsChain fun c d => sameRun c d = true)
    (ha : runs.IsChain fun run next => ∃ hr hn, sameRun (run.getLast hr) (next.head hn) = false) :
    halveSpaces runs.flatten = runs.flatMap halveRun := by
  induction runs with
  | nil => rfl
  | cons run runs ih =>
    obtain ⟨hrun, hruns⟩ := List.forall_mem_cons.mp hr
    have hseam : run.getLast? ≠ some ' ' ∨ runs.flatten.head? ≠ some ' ' := by
      cases runs with
      | nil => exact .inr (by decide)
      | cons next more =>
        obtain ⟨hne, hne', hends⟩ := (List.isChain_cons_cons.mp ha).1
        by_contra hboth
        obtain ⟨hlast, hhead⟩ := not_or.mp hboth
        rw [not_not, List.getLast?_eq_some_getLast hne, Option.some.injEq] at hlast
        rw [not_not, List.flatten_cons, List.head?_append_of_ne_nil _ hne',
          List.head?_eq_some_head hne', Option.some.injEq] at hhead
        rw [hlast, hhead] at hends
        exact absurd hends (by decide)
    rw [List.flatten_cons, halveSpaces_append hseam, halveSpaces_run hrun, ih hruns ha.tail,
      List.flatMap_cons]

/-- Halving the spaces of a text shortens each of its runs. -/
theorem halveSpaces_eq_flatMap (text : List Char) :
    halveSpaces text = (spaceRuns text).flatMap halveRun := by
  have hruns := @halveSpaces_flatten (spaceRuns text)
    (fun run hm => List.isChain_of_mem_splitBy hm) (List.isChain_getLast_head_splitBy sameRun text)
  rwa [spaceRuns, List.flatten_splitBy] at hruns

/-! ## Texts joined inside a run -/

/-- The number of spaces that a text ends with. -/
def spacesAtEnd (text : List Char) : ℕ := (text.rtakeWhile (· == ' ')).length

/-- The number of spaces that a text begins with. -/
def spacesAtStart (text : List Char) : ℕ := (text.takeWhile (· == ' ')).length

/-- A text is what stands in front of the spaces at its end, and these. -/
theorem exists_spacesAtEnd (text : List Char) :
    ∃ front, text = front ++ List.replicate (spacesAtEnd text) ' ' ∧ front.getLast? ≠ some ' ' := by
  have hspaces : text.rtakeWhile (· == ' ') = List.replicate (spacesAtEnd text) ' ' := by
    refine List.eq_replicate_iff.mpr ⟨rfl, fun c hc => ?_⟩
    have hc := List.mem_rtakeWhile_imp hc
    exact beq_iff_eq.mp hc
  refine ⟨text.rdropWhile (· == ' '), ?_, fun hlast => ?_⟩
  · rw [← hspaces, List.rdropWhile_append_rtakeWhile]
  · have hne : text.rdropWhile (· == ' ') ≠ [] := fun h => by rw [h] at hlast; cases hlast
    rw [List.getLast?_eq_some_getLast hne, Option.some.injEq] at hlast
    exact List.rdropWhile_last_not _ _ hne (beq_iff_eq.mpr hlast)

/-- A text is the spaces at its start, and what stands behind them. -/
theorem exists_spacesAtStart (text : List Char) :
    ∃ rest, text = List.replicate (spacesAtStart text) ' ' ++ rest ∧ rest.head? ≠ some ' ' := by
  have hspaces : text.takeWhile (· == ' ') = List.replicate (spacesAtStart text) ' ' := by
    refine List.eq_replicate_iff.mpr ⟨rfl, fun c hc => ?_⟩
    have hc := List.mem_takeWhile_imp hc
    exact beq_iff_eq.mp hc
  refine ⟨text.dropWhile (· == ' '), ?_, fun hhead => ?_⟩
  · rw [← hspaces, List.takeWhile_append_dropWhile]
  · have hnot := List.head?_dropWhile_not (· == ' ') text
    rw [hhead] at hnot
    exact absurd hnot (by decide)

/-- Around a run of spaces the texts are put on one line each for itself. -/
theorem oneLine_around_spaces {front rest : List Char} (hf : front.getLast? ≠ some ' ')
    (hr : rest.head? ≠ some ' ') (k : ℕ) :
    oneLine (front ++ (List.replicate k ' ' ++ rest)) =
      oneLine front ++ (List.replicate ((k + 1) / 2) ' ' ++ oneLine rest) := by
  have hspaces : oneLine (List.replicate k ' ') = List.replicate ((k + 1) / 2) ' ' := by
    rw [oneLine, halveSpaces_replicate, List.filter_eq_self]
    intro c hc
    rw [List.eq_of_mem_replicate hc]
    rfl
  rw [oneLine_append (.inl hf), oneLine_append (.inr hr), hspaces]

/-- Two texts joined are put on one line as each of them is, unless an odd number of
spaces stands on both sides of the seam. Then there is one space less, at the seam. -/
theorem oneLine_seam (left right : List Char) :
    if Odd (spacesAtEnd left) ∧ Odd (spacesAtStart right) then
      ∃ front rest, oneLine left = front ++ [' '] ∧ oneLine right = ' ' :: rest ∧
        oneLine (left ++ right) = front ++ ' ' :: rest
    else oneLine (left ++ right) = oneLine left ++ oneLine right := by
  obtain ⟨front, hleft, hfront⟩ := exists_spacesAtEnd left
  obtain ⟨rest, hright, hrest⟩ := exists_spacesAtStart right
  generalize spacesAtEnd left = k at hleft ⊢
  generalize spacesAtStart right = m at hright ⊢
  have hnil : oneLine [] = [] := rfl
  have hl : oneLine left = oneLine front ++ List.replicate ((k + 1) / 2) ' ' := by
    have h := @oneLine_around_spaces front [] hfront (by decide) k
    rwa [List.append_nil, hnil, List.append_nil, ← hleft] at h
  have hr : oneLine right = List.replicate ((m + 1) / 2) ' ' ++ oneLine rest := by
    have h := @oneLine_around_spaces [] rest (by decide) hrest m
    rwa [List.nil_append, hnil, List.nil_append, ← hright] at h
  have hjoined : oneLine (left ++ right) =
      oneLine front ++ (List.replicate ((k + m + 1) / 2) ' ' ++ oneLine rest) := by
    rw [← oneLine_around_spaces hfront hrest, hleft, hright, List.append_assoc,
      ← List.append_assoc (List.replicate k ' '), List.replicate_append_replicate]
  split_ifs with hodd
  · obtain ⟨⟨p, rfl⟩, q, rfl⟩ := hodd
    refine ⟨oneLine front ++ List.replicate p ' ', List.replicate q ' ' ++ oneLine rest, ?_, ?_, ?_⟩
    · rw [hl, show (2 * p + 1 + 1) / 2 = p + 1 by omega, List.replicate_succ', List.append_assoc]
    · rw [hr, show (2 * q + 1 + 1) / 2 = q + 1 by omega, List.replicate_succ, List.cons_append]
    · rw [hjoined, show (2 * p + 1 + (2 * q + 1) + 1) / 2 = p + (q + 1) by omega,
        ← List.replicate_append_replicate, List.replicate_succ]
      simp only [List.append_assoc, List.cons_append]
  · have hhalves : (k + m + 1) / 2 = (k + 1) / 2 + (m + 1) / 2 := by
      rw [Nat.odd_iff, Nat.odd_iff] at hodd
      omega
    rw [hjoined, hl, hr, hhalves, ← List.replicate_append_replicate]
    simp only [List.append_assoc]

/-! ## The law -/

/-- On one line a text is its runs of spaces, each shortened to half of it, rounded
up, without tabs and line ends. It stays as it is exactly if it has no tab, no line
end and no two spaces side by side. A second pass changes it exactly if two spaces
stand side by side then. Two texts joined are put on one line as each of them is,
with one space less at the seam if both have an odd number of spaces there. -/
theorem oneLine_exact (text left right : List Char) :
    oneLine text = ((spaceRuns text).flatMap halveRun).filter
        (fun c => c ≠ '\t' ∧ c ≠ '\r' ∧ c ≠ '\n') ∧
      (oneLine text = text ↔
        ('\t' ∉ text ∧ '\r' ∉ text ∧ '\n' ∉ text) ∧ ¬[' ', ' '] <:+: text) ∧
      (oneLine (oneLine text) ≠ oneLine text ↔ [' ', ' '] <:+: oneLine text) ∧
      if Odd (spacesAtEnd left) ∧ Odd (spacesAtStart right) then
        ∃ front rest, oneLine left = front ++ [' '] ∧ oneLine right = ' ' :: rest ∧
          oneLine (left ++ right) = front ++ ' ' :: rest
      else oneLine (left ++ right) = oneLine left ++ oneLine right := by
  refine ⟨?_, ?_, ?_, oneLine_seam left right⟩
  · rw [oneLine, halveSpaces_eq_flatMap]
    refine List.filter_congr fun c _ => ?_
    rw [Bool.eq_iff_iff]
    simp only [isLineBreaking, Bool.not_eq_true', Bool.or_eq_false_iff, beq_eq_false_iff_ne,
      and_assoc, decide_eq_true_eq]
  · rw [oneLine_eq_self_iff, forall_isLineBreaking_iff]
  · have hflat : ∀ c ∈ oneLine text, isLineBreaking c = false :=
      fun c hc => isLineBreaking_of_mem_oneLine hc
    rw [ne_eq, oneLine_eq_self_iff, and_iff_right hflat, not_not]

/-- Three spaces around a tab and two around a line end: the second pass finds two
pairs that the first one made. -/
example : oneLine "a  \t b  \n c".toList = "a  b  c".toList ∧
    oneLine (oneLine "a  \t b  \n c".toList) = "a b c".toList := by decide

end HeaderExports.Text
