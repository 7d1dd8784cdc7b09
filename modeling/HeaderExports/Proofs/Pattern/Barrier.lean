import HeaderExports.Proofs.Pattern.Lines
import Mathlib.Data.List.Basic

/-!
# Scanning across a barrier

Text put behind another one adds readings that reach into it and changes none
of the others, nor their order. So a piece of text that no word of a pattern
touches is a barrier: a scan of the whole is a scan of what stands in front of
the barrier and, moved to its place, a scan of what stands behind it.
-/

namespace HeaderExports

open Text (byteLength byteLength_append)

variable {σ : Type}

namespace Pattern

variable {p : Pattern σ}

/-! ## Readings with text behind them -/

/-- A reading with more text behind what it leaves. -/
def extend (after : List Char) (run : Run σ) : Run σ := (run.1, run.2 ++ after)

/-- Whether a reading leaves all of the text put behind. -/
def leaves (after : List Char) (run : Run σ) : Bool := after.length ≤ run.2.length

/-- A reading never leaves more than it was given. -/
theorem length_le_of_mem_runs {text : List Char} {run : Run σ} (hm : run ∈ runs p text) :
    run.2.length ≤ text.length := by
  obtain ⟨word, he, -⟩ := spells_of_mem_runs hm
  rw [he, List.length_append]
  exact Nat.le_add_left _ _

/-- What a reading took does not depend on the text behind what it leaves. -/
theorem taken_append_append (text rest after : List Char) :
    taken (text ++ after) (rest ++ after) = taken text rest := by
  rw [taken, taken, List.length_append, List.length_append, Nat.add_sub_add_right,
    List.take_append_of_le_length (Nat.sub_le _ _)]

/-- Items from which nothing comes may be left out. -/
theorem flatMap_filter_of_forall {α β : Type} {keep : α → Bool} {f : α → List β} {xs : List α}
    (h : ∀ x, keep x = false → f x = []) : (xs.filter keep).flatMap f = xs.flatMap f := by
  induction xs with
  | nil => rfl
  | cons x xs ih =>
    cases hx : keep x with
    | true => rw [List.filter_cons_of_pos hx, List.flatMap_cons, List.flatMap_cons, ih]
    | false =>
      rw [List.filter_cons_of_neg (Bool.not_eq_true _ ▸ hx), List.flatMap_cons, h x hx, ih,
        List.nil_append]

section Continued

variable {step next : List Char → List (Run σ)} {after : List Char}

/-- Readings that are continued leave the text put behind exactly if they do so
before and after they are continued. -/
theorem filter_leaves_flatMap {readings readings' : List (Run σ)}
    (hr : readings.filter (leaves after) = readings'.map (extend after))
    (hn : ∀ text, (next (text ++ after)).filter (leaves after) =
      (next text).map (extend after))
    (hl : ∀ text, ∀ run ∈ next text, run.2.length ≤ text.length) :
    (readings.flatMap fun run => (next run.2).map fun more =>
        (run.1 ++ more.1, more.2)).filter (leaves after) =
      (readings'.flatMap fun run => (next run.2).map fun more =>
        (run.1 ++ more.1, more.2)).map (extend after) := by
  have hcontinued (run : Run σ) : ((next run.2).map fun more =>
      (run.1 ++ more.1, more.2)).filter (leaves after) =
        ((next run.2).filter (leaves after)).map fun more => (run.1 ++ more.1, more.2) :=
    List.filter_map
  -- a reading that reached into the text behind does not come back
  have hnone (run : Run σ) (hlong : leaves after run = false) :
      ((next run.2).filter (leaves after)).map (fun more => (run.1 ++ more.1, more.2)) = [] := by
    rw [List.map_eq_nil_iff, List.filter_eq_nil_iff]
    intro more hm hlong'
    have h := hl run.2 more hm
    simp only [leaves, decide_eq_true_eq, decide_eq_false_iff_not] at hlong hlong'
    omega
  rw [List.filter_flatMap]
  simp only [hcontinued]
  rw [← flatMap_filter_of_forall hnone, hr, List.flatMap_map, List.map_flatMap]
  refine List.flatMap_congr fun run _ => ?_
  change ((next (run.2 ++ after)).filter (leaves after)).map _ = _
  rw [hn, List.map_map, List.map_map]
  rfl

/-- Rounds of a repetition leave no more than they were given. -/
theorem length_le_of_mem_rounds {limit : ℕ} {text : List Char} :
    ∀ run ∈ rounds step limit text, run.2.length ≤ text.length := by
  induction limit generalizing text with
  | zero => exact List.forall_mem_singleton.mpr (Nat.le_refl _)
  | succ limit ih =>
    refine List.forall_mem_append.mpr
      ⟨fun run hm => ?_, List.forall_mem_singleton.mpr (Nat.le_refl _)⟩
    obtain ⟨first, hfirst, hm⟩ := List.mem_flatMap.mp hm
    obtain ⟨more, hmore, rfl⟩ := List.mem_map.mp hm
    have hshort : first.2.length < text.length := by simpa using (List.mem_filter.mp hfirst).2
    exact Nat.le_trans (ih more hmore) (Nat.le_of_lt hshort)

/-- The rounds of a repetition that leave the text put behind are those without
it. -/
theorem rounds_append
    (hs : ∀ text, (step (text ++ after)).filter (leaves after) =
      (step text).map (extend after))
    (limit : ℕ) (text : List Char) :
    (rounds step limit (text ++ after)).filter (leaves after) =
      (rounds step limit text).map (extend after) := by
  have hstop (text : List Char) : leaves (σ := σ) after ([], text ++ after) = true := by
    simp only [leaves, List.length_append, decide_eq_true_eq]
    omega
  induction limit generalizing text with
  | zero => rw [rounds, rounds, List.filter_cons_of_pos (hstop text)]; rfl
  | succ limit ih =>
    have hshort : ((step (text ++ after)).filter fun run =>
          run.2.length < (text ++ after).length).filter (leaves after) =
        ((step text).filter fun run => run.2.length < text.length).map (extend after) := by
      rw [List.filter_comm, hs, List.filter_map]
      refine congrArg _ (List.filter_congr fun run _ => ?_)
      simp only [Function.comp_apply, extend, List.length_append, Nat.add_lt_add_iff_right]
    rw [rounds, rounds, List.filter_append, List.map_append,
      filter_leaves_flatMap hshort ih fun text => length_le_of_mem_rounds,
      List.filter_cons_of_pos (hstop text)]
    rfl

end Continued

/-- The readings that leave the text put behind are those without it, in the
same order. -/
theorem runs_append (p : Pattern σ) (text after : List Char) :
    (runs p (text ++ after)).filter (leaves after) = (runs p text).map (extend after) := by
  induction p generalizing text with
  | empty =>
    have hall : leaves (σ := σ) after ([], text ++ after) = true := by
      simp only [leaves, List.length_append, decide_eq_true_eq]
      omega
    rw [runs, runs, List.filter_cons_of_pos hall]
    rfl
  | one accepts =>
    cases text with
    | nil =>
      rw [List.nil_append, runs, List.map_nil, List.filter_eq_nil_iff]
      cases after with
      | nil => exact List.forall_mem_nil _
      | cons c after =>
        intro run hm
        rw [runs] at hm
        split_ifs at hm
        · rw [List.mem_singleton.mp hm, leaves, decide_eq_true_eq]
          exact Nat.not_succ_le_self _
        · cases hm
    | cons c text =>
      have hall : leaves (σ := σ) after ([], text ++ after) = true := by
        simp only [leaves, List.length_append, decide_eq_true_eq]
        omega
      rw [List.cons_append, runs, runs]
      split_ifs
      · rw [List.filter_cons_of_pos hall]
        rfl
      · rfl
  | seq first second ihFirst ihSecond =>
    exact filter_leaves_flatMap (ihFirst text) ihSecond fun text run => length_le_of_mem_runs
  | alt first second ihFirst ihSecond =>
    rw [runs, runs, List.filter_append, List.map_append, ihFirst, ihSecond]
  | star body ih =>
    rw [runs, runs, rounds_append ih]
    refine congrArg _ (rounds_eq_of_le ?_ (Nat.le_refl _))
    rw [List.length_append]
    exact Nat.le_add_right _ _
  | mark label body ih =>
    rw [runs, runs, List.filter_map, List.map_map]
    change ((runs body (text ++ after)).filter (leaves after)).map _ = _
    rw [ih, List.map_map]
    refine List.map_congr_left fun run _ => ?_
    simp only [Function.comp_apply, extend, taken_append_append]

/-- If no word reaches into the text put behind, the preferred reading is the
one without it. -/
theorem first?_append {text after : List Char}
    (hin : ∀ (word rest : List Char) (marks : Marks σ), Spells p word marks →
      text ++ after = word ++ rest → word.length ≤ text.length) :
    first? p (text ++ after) = (first? p text).map (extend after) := by
  rw [first?_eq_head?, first?_eq_head?, ← List.head?_map, ← runs_append,
    List.filter_eq_self.mpr]
  intro run hm
  obtain ⟨word, he, hs⟩ := spells_of_mem_runs hm
  have hword := hin word run.2 run.1 hs he
  have hlength := congrArg List.length he
  simp only [List.length_append] at hlength
  rw [leaves, decide_eq_true_eq]
  omega

/-! ## Barriers -/

/-- No word of the pattern holds a character of the barrier, wherever it
stands: a word lies in front of the barrier or behind it. -/
def Separates (bar : List Char) (p : Pattern σ) : Prop :=
  ∀ {left right front word behind : List Char} {marks : Marks σ}, Spells p word marks →
    left ++ (bar ++ right) = front ++ (word ++ behind) →
      (∃ rest, left = front ++ (word ++ rest)) ∨ ∃ rest, front = left ++ (bar ++ rest)

/-- A pattern separated by a barrier of more than one character has no empty
word: that would lie within the barrier. -/
theorem Separates.not_spells_nil {bar : List Char} (hb : Separates bar p) (hl : 1 < bar.length)
    (marks : Marks σ) : ¬Spells p [] marks := by
  intro hs
  obtain ⟨c, rest, rfl⟩ := List.exists_cons_of_length_pos (Nat.lt_trans Nat.zero_lt_one hl)
  have he : [] ++ ((c :: rest) ++ []) = [c] ++ ([] ++ (rest ++ [])) := rfl
  rcases hb hs he with
    ⟨more, hmore⟩ | ⟨more, hmore⟩
  · exact absurd hmore.symm (List.cons_ne_nil _ _)
  · have hlength := congrArg List.length hmore
    simp only [List.length_append, List.length_cons, List.length_nil] at hl hlength
    omega

/-- A barrier is silent. -/
theorem Separates.silent {bar : List Char} (hb : Separates bar p)
    (hn : ∀ marks : Marks σ, ¬Spells p [] marks) (right : List Char) : Silent p bar right := by
  intro front word behind marks hs he
  have htext : [] ++ (bar ++ right) = front ++ (word ++ behind) := he
  rcases hb hs htext with ⟨rest, hrest⟩ | ⟨rest, rfl⟩
  · rw [(List.append_eq_nil_iff.mp (List.append_eq_nil_iff.mp hrest.symm).2).1] at hs
    exact absurd hs (hn marks)
  · rw [List.nil_append, List.length_append]
    exact Nat.le_add_right _ _

/-- In front of a barrier the preferred reading does not depend on the barrier
and on what stands behind it. -/
theorem Separates.first?_eq {bar : List Char} (hb : Separates bar p) {c : Char}
    (left right : List Char) : first? p (c :: left ++ (bar ++ right)) =
      (first? p (c :: left)).map (extend (bar ++ right)) := by
  refine first?_append fun word rest marks hs he => ?_
  have htext : c :: left ++ (bar ++ right) = [] ++ (word ++ rest) := he
  rcases hb hs htext with ⟨more, hmore⟩ | ⟨more, hmore⟩
  · rw [hmore, List.nil_append, List.length_append]
    exact Nat.le_add_right _ _
  · exact absurd hmore.symm (List.cons_ne_nil _ _)

end Pattern

/-- An occurrence moved to the right by a number of bytes. -/
def Occurrence.shift (bytes : ℕ) (found : Occurrence σ) : Occurrence σ :=
  ⟨⟨found.span.start + bytes, found.span.stop + bytes⟩, found.marks⟩

namespace Pattern

variable {p : Pattern σ}

/-- A scan that begins further right finds the same, moved. -/
theorem scanFrom_shift (place bytes skipped : ℕ) (fresh : Bool) (text : List Char) :
    scanFrom p (place + bytes) skipped fresh text =
      (scanFrom p place skipped fresh text).map (Occurrence.shift bytes) := by
  induction text generalizing place skipped fresh with
  | nil =>
    rw [scanFrom, scanFrom]
    cases first? p [] with
    | none => rfl
    | some run => cases fresh <;> rfl
  | cons c rest ih =>
    have hplace (n : ℕ) : place + bytes + n = place + n + bytes := Nat.add_right_comm _ _ _
    simp only [scanFrom, hplace, ih]
    split
    · rfl
    · split
      · rfl
      · split
        · cases fresh <;> rfl
        · rfl

section Scan

variable {bar : List Char} (hb : Separates bar p) (hn : ∀ marks : Marks σ, ¬Spells p [] marks)

include hb hn

/-- From any place on, a scan across a barrier finds what it finds in front of
the barrier and goes on behind it. -/
theorem scanFrom_of_separates (place : ℕ) (fresh : Bool) (left right : List Char) :
    scanFrom p place 0 fresh (left ++ (bar ++ right)) =
      scanFrom p place 0 fresh left ++
        scanFrom p (place + byteLength (left ++ bar)) 0 true right := by
  induction hl : left.length using Nat.strongRecOn generalizing left place fresh with
  | ind n ih =>
    cases left with
    | nil =>
      have hnil : scanFrom p place 0 fresh [] = [] := by rw [scanFrom, first?_nil_eq_none hn]
      rw [hnil, List.nil_append, List.nil_append, List.nil_append]
      exact scanFrom_of_silent hn (hb.silent hn right) place fresh
    | cons c left =>
      have hread := hb.first?_eq (c := c) left right
      cases hr : first? p (c :: left) with
      | none =>
        rw [hr, Option.map_none, List.cons_append] at hread
        have hshort : left.length < n := by rw [← hl]; exact Nat.lt_succ_self _
        rw [List.cons_append, scanFrom_cons_of_none hread, scanFrom_cons_of_none hr,
          ih _ hshort _ _ left rfl, List.cons_append, byteLength, Nat.add_assoc]
      | some run =>
        obtain ⟨marks, tail⟩ := run
        obtain ⟨word, hne, he, -⟩ := exists_of_first? hn hr
        simp only at he
        rw [hr, Option.map_some, extend] at hread
        rw [he] at hr hread ⊢
        rw [List.append_assoc] at hread
        have hlength := congrArg List.length he
        have hpos := List.length_pos_iff.mpr hne
        rw [List.length_append, hl] at hlength
        rw [List.append_assoc, scanFrom_of_first? hne hread, scanFrom_of_first? hne hr,
          ih _ (by omega) _ _ tail rfl, List.append_assoc, byteLength_append word, Nat.add_assoc,
          List.cons_append]

/-- A scan across a barrier finds what stands in front of the barrier and, moved
to its place, what stands behind it. -/
theorem scan_of_separates (left right : List Char) :
    p.scan (left ++ (bar ++ right)) =
      p.scan left ++ (p.scan right).map (Occurrence.shift (byteLength (left ++ bar))) := by
  have hright := scanFrom_shift (p := p) 0 (byteLength (left ++ bar)) 0 true right
  rw [scan, scanFrom_of_separates hb hn, hright]
  rfl

end Scan

end Pattern

end HeaderExports
