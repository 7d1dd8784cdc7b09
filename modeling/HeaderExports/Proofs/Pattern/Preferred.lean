import HeaderExports.Proofs.Pattern.Pinned

/-!
# Which reading is preferred

A repetition prefers the longest run, and a choice its first pattern. In front
of a given text the preferred reading of a pattern is put together from those
of its parts. Something optional is passed over if it cannot be read, or if
what follows cannot be read behind it.
-/

namespace HeaderExports.Pattern

variable {σ : Type} {p : Pattern σ} {others : List (Pattern σ)} {word word' rest : List Char}
  {marks marks' : Marks σ}

/-- In front of a text the preferred reading of a pattern takes a word, as soon
as what follows can be read off the text. -/
def Prefers (p : Pattern σ) (word : List Char) (marks : Marks σ) (rest : List Char) : Prop :=
  ∀ (next : List Char → Option (Run σ)) (run : Run σ), next rest = some run →
    attempt p (word ++ rest) next = some (marks ++ run.1, run.2)

/-- The preferred reading is the first one. -/
theorem Prefers.first?_eq (h : Prefers p word marks rest) :
    first? p (word ++ rest) = some (marks, rest) := by
  have hr := h (fun rest => some ([], rest)) ([], rest) rfl
  rwa [List.append_nil] at hr

/-- An attempt fails if the text behind every word is refused. -/
theorem attempt_eq_none {text : List Char} {next : List Char → Option (Run σ)}
    (h : ∀ word rest marks, text = word ++ rest → Spells p word marks → next rest = none) :
    attempt p text next = none := by
  rw [attempt_eq, List.findSome?_eq_none_iff]
  intro run hm
  obtain ⟨word, he, hs⟩ := spells_of_mem_runs hm
  rw [continueWith, h word run.2 run.1 he hs, Option.map_none]

/-- No patterns in a row prefer nothing. -/
theorem prefers_nil (rest : List Char) : Prefers (σ := σ) (chain []) [] [] rest :=
  fun _ _ hr => hr

/-- A determined pattern prefers each of its words: there is no other reading. -/
theorem Determined.prefers (hd : Determined p) (hs : Spells p word marks) (rest : List Char) :
    Prefers p word marks rest := by
  intro next run hr
  have hmem : (marks, rest) ∈ runs p (word ++ rest) := mem_runs_of_spells hs rest
  have hall : ∀ run' ∈ runs p (word ++ rest), run' = (marks, rest) := by
    rintro ⟨marks', rest'⟩ hm
    obtain ⟨word', he, hs'⟩ := spells_of_mem_runs hm
    obtain ⟨rfl, rfl⟩ := hd.same hs hs' he
    rfl
  obtain ⟨first, others, hruns⟩ := List.exists_cons_of_ne_nil (List.ne_nil_of_mem hmem)
  have hfirst : first = (marks, rest) := hall first (hruns ▸ List.mem_cons_self)
  rw [attempt_eq, hruns, List.findSome?_cons, hfirst, continueWith, hr]
  rfl

/-- Patterns in a row prefer what each of them prefers in front of the others. -/
theorem Prefers.cons (h : Prefers p word marks (word' ++ rest))
    (ho : Prefers (chain others) word' marks' rest) :
    Prefers (chain (p :: others)) (word ++ word') (marks ++ marks') rest := by
  intro next run hr
  have hrest := ho next run hr
  have hwhole := h (fun rest => attempt (chain others) rest next) _ hrest
  rw [List.append_assoc, chain, attempt, hwhole, List.append_assoc]

/-- The last of the patterns in a row is followed by nothing. -/
theorem Prefers.last (h : Prefers p word marks rest) : Prefers (chain [p]) word marks rest := by
  have hlast : Prefers (chain [p]) (word ++ []) (marks ++ []) rest :=
    Prefers.cons h (prefers_nil rest)
  rwa [List.append_nil, List.append_nil] at hlast

/-- Given characters are read off their own text. -/
theorem attempt_exactly (given text : List Char) (next : List Char → Option (Run σ)) :
    attempt (exactly given) (given ++ text) next = next text := by
  unfold exactly
  induction given with
  | nil => rfl
  | cons c given ih =>
    rw [List.map_cons, chain, List.cons_append, attempt, attempt, if_pos (beq_self_eq_true c)]
    exact ih

/-- A given text prefers itself. -/
theorem prefers_lit (given : String) (rest : List Char) :
    Prefers (σ := σ) (Pattern.lit given) given.toList [] rest := by
  intro next run hr
  rw [Pattern.lit, attempt_exactly]
  exact hr

/-- A given text is read in front of what the others prefer. -/
theorem Prefers.lit (given : String) (ho : Prefers (chain others) word marks rest) :
    Prefers (chain (Pattern.lit given :: others)) (given.toList ++ word) marks rest := by
  intro next run hr
  rw [List.append_assoc, chain, attempt, Pattern.lit, attempt_exactly]
  exact ho next run hr

/-- What a marked pattern prefers is marked. -/
theorem Prefers.mark (label : σ) (h : Prefers p word marks rest) :
    Prefers (.mark label p) word (marks ++ [(label, word)]) rest := by
  intro next run hr
  have hinner := h (fun rest' => (next rest').map fun run =>
    ((label, taken (word ++ rest) rest') :: run.1, run.2)) ((label, word) :: run.1, run.2)
    (by simp only [hr, taken_append, Option.map_some])
  rw [attempt, hinner, List.append_assoc, List.singleton_append]

/-- The longest run is tried first. -/
theorem longestFirst_append {inside : Char → Bool} (hw : ∀ c ∈ word, inside c = true)
    (hr : ∀ c ∈ rest.head?, inside c = false) {next : List Char → Option (Run σ)} {run : Run σ}
    (hn : next rest = some run) (behind : List (List Char)) :
    longestFirst inside next (word ++ rest) behind = some run := by
  induction word generalizing behind with
  | nil =>
    cases rest with
    | nil => rw [List.append_nil, longestFirst, List.findSome?_cons, hn]
    | cons c rest =>
      have hc := hr c rfl
      rw [List.nil_append, longestFirst, hc, if_neg Bool.false_ne_true, List.findSome?_cons, hn]
  | cons c word ih =>
    rw [List.cons_append, longestFirst, hw c List.mem_cons_self, if_pos rfl]
    exact ih (fun d hd => hw d (List.mem_cons_of_mem c hd)) _

/-- A repeated character prefers the whole run. -/
theorem prefers_star_one {inside : Char → Bool} (hw : ∀ c ∈ word, inside c = true)
    (hr : ∀ c ∈ rest.head?, inside c = false) :
    Prefers (σ := σ) (.star (.one inside)) word [] rest := by
  intro next run hn
  simp only [attempt, single?]
  exact longestFirst_append hw hr hn []

/-- A character repeated at least once prefers the whole run. -/
theorem prefers_plus_one {inside : Char → Bool} (hne : word ≠ [])
    (hw : ∀ c ∈ word, inside c = true) (hr : ∀ c ∈ rest.head?, inside c = false) :
    Prefers (σ := σ) (plus (.one inside)) word [] rest := by
  intro next run hn
  obtain ⟨c, more, rfl⟩ := List.exists_cons_of_ne_nil hne
  rw [plus, List.cons_append, attempt, attempt, if_pos (hw c List.mem_cons_self)]
  exact prefers_star_one (fun d hd => hw d (List.mem_cons_of_mem c hd)) hr next run hn

/-- The first of two patterns is read if it can be. -/
theorem Prefers.altLeft (h : Prefers p word marks rest) (q : Pattern σ) :
    Prefers (.alt p q) word marks rest := by
  intro next run hr
  rw [attempt, h next run hr]

/-- Something optional is read if it can be. -/
theorem Prefers.optional (h : Prefers p word marks rest) :
    Prefers (Pattern.optional p) word marks rest :=
  h.altLeft .empty

/-- Something optional that cannot be read is passed over. -/
theorem prefers_optional_nil (h : ∀ word' behind marks', rest = word' ++ behind →
    ¬Spells p word' marks') : Prefers (Pattern.optional p) [] [] rest := by
  intro next run hr
  have hnone : attempt p rest next = none :=
    attempt_eq_none fun word' behind marks' he hs => absurd hs (h word' behind marks' he)
  rw [List.nil_append, Pattern.optional, attempt, hnone]
  exact hr

/-- The second of two patterns is read where the first one cannot be. -/
theorem Prefers.altRight {q : Pattern σ} (h : Prefers q word marks rest)
    (hp : ∀ word' behind marks', word ++ rest = word' ++ behind → ¬Spells p word' marks') :
    Prefers (.alt p q) word marks rest := by
  intro next run hr
  have hnone : attempt p (word ++ rest) next = none :=
    attempt_eq_none fun word' behind marks' he hs => absurd hs (hp word' behind marks' he)
  rw [attempt, hnone]
  exact h next run hr

/-- Something optional is passed over if the others cannot be read behind it. -/
theorem Prefers.skip (ho : Prefers (chain others) word marks rest)
    (h : ∀ word' behind marks', word ++ rest = word' ++ behind →
      ¬Spells (chain (p :: others)) word' marks') :
    Prefers (chain (Pattern.optional p :: others)) word marks rest := by
  intro next run hr
  have hnone : attempt p (word ++ rest) (fun behind => attempt (chain others) behind next) =
      none := by
    refine attempt_eq_none fun u text m he hu => ?_
    refine attempt_eq_none fun v behind n he' hv => ?_
    exact absurd (Spells.seq hu hv)
      (h (u ++ v) behind (m ++ n) (by rw [he, he', List.append_assoc]))
  rw [chain, attempt, Pattern.optional, attempt, hnone]
  exact ho next run hr

end HeaderExports.Pattern
