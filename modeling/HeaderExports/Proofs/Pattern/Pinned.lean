import HeaderExports.Proofs.Pattern.Order

/-!
# Patterns whose words are pinned in a text

Two words of a pinned pattern in one text lie apart, or they end at the same
place and carry the same marks. Such a pattern reads a word wherever it is
inserted: nothing in front of the word changes what is marked in it, nothing
behind it is drawn in, and what is read around it stays as it was.
-/

namespace HeaderExports.Pattern

open Text (byteLength)

variable {σ : Type} {p : Pattern σ}

/-- The marks of all words that a scan of a text finds, in order. -/
def readings (p : Pattern σ) (text : List Char) : List (Marks σ) := (p.scan text).map (·.marks)

/-- A pattern whose words do not overlap unless they end alike and are marked
alike. -/
structure Pinned (p : Pattern σ) : Prop where
  /-- Every word has a character. -/
  nonempty : ∀ marks : Marks σ, ¬Spells p [] marks
  /-- Two words in one text lie apart or end alike with the same marks. -/
  apart_or_same : ∀ {before word behind before' word' behind' : List Char} {marks marks' : Marks σ},
    Spells p word marks → Spells p word' marks' →
    before ++ (word ++ behind) = before' ++ (word' ++ behind') →
      (∃ between, before' = before ++ (word ++ between)) ∨
      (∃ between, before = before' ++ (word' ++ between)) ∨
      (behind = behind' ∧ marks = marks')

/-- A pattern whose words at one place end alike and are marked alike. -/
structure Determined (p : Pattern σ) : Prop where
  /-- Every word has a character. -/
  nonempty : ∀ marks : Marks σ, ¬Spells p [] marks
  /-- Two words at the front of one text end alike with the same marks. -/
  same : ∀ {word behind word' behind' : List Char} {marks marks' : Marks σ},
    Spells p word marks → Spells p word' marks' → word ++ behind = word' ++ behind' →
      behind = behind' ∧ marks = marks'

section Readings

variable (hn : ∀ marks : Marks σ, ¬Spells p [] marks)

include hn

/-- Without empty words nothing can be read off the empty text. -/
theorem first?_nil_eq_none : first? p [] = none := by
  rw [← Option.not_isSome_iff_eq_none, first?_isSome_iff]
  rintro ⟨word, rest, marks, he, hs⟩
  rw [(List.append_eq_nil_iff.mp he.symm).1] at hs
  exact hn _ hs

/-- Without empty words every reading takes a nonempty word. -/
theorem exists_of_first? {text : List Char} {run : Run σ} (hr : first? p text = some run) :
    ∃ word, word ≠ [] ∧ text = word ++ run.2 ∧ Spells p word run.1 := by
  obtain ⟨word, he, hs⟩ := spells_of_first? hr
  refine ⟨word, ?_, he, hs⟩
  intro hw
  rw [hw] at hs
  exact hn _ hs

/-- Without empty words, what a scan marks depends neither on the place at
which it stands nor on what it has read before. -/
theorem map_marks_scanFrom (place : ℕ) (fresh : Bool) (text : List Char) :
    (scanFrom p place 0 fresh text).map (·.marks) = p.readings text := by
  induction hl : text.length using Nat.strongRecOn generalizing text place fresh with
  | ind n ih =>
    cases text with
    | nil => simp only [readings, scan, scanFrom, first?_nil_eq_none hn]
    | cons c rest =>
      have hshort : rest.length < n := by rw [← hl]; exact Nat.lt_succ_self _
      cases hr : first? p (c :: rest) with
      | none =>
        rw [readings, scan, scanFrom_cons_of_none hr, scanFrom_cons_of_none hr,
          ih _ hshort _ _ rest rfl, ih _ hshort _ _ rest rfl]
      | some run =>
        obtain ⟨word, hne, he, -⟩ := exists_of_first? hn hr
        have hlength := congrArg List.length he
        have hword := List.length_pos_iff.mpr hne
        rw [List.length_append, hl] at hlength
        rw [readings, scan]
        rw [he] at hr ⊢
        rw [scanFrom_of_first? hne hr, scanFrom_of_first? hne hr, List.map_cons, List.map_cons,
          ih _ (by omega) _ _ run.2 rfl, ih _ (by omega) _ _ run.2 rfl]

/-- The empty text has no readings. -/
theorem readings_nil : p.readings [] = [] := by
  simp only [readings, scan, scanFrom, first?_nil_eq_none hn, List.map_nil]

/-- Where nothing can be read the readings are those of the rest. -/
theorem readings_cons_of_none {c : Char} {rest : List Char} (hr : first? p (c :: rest) = none) :
    p.readings (c :: rest) = p.readings rest := by
  rw [readings, scan, scanFrom_cons_of_none hr]
  exact map_marks_scanFrom hn _ _ rest

/-- A character with which no word begins is passed over. -/
theorem readings_cons_of_forall {c : Char}
    (hc : ∀ (word : List Char) (marks : Marks σ), ¬Spells p (c :: word) marks)
    (rest : List Char) : p.readings (c :: rest) = p.readings rest := by
  refine readings_cons_of_none hn ?_
  rw [← Option.not_isSome_iff_eq_none, first?_isSome_iff]
  rintro ⟨word, behind, marks, he, hs⟩
  cases word with
  | nil => exact hn _ hs
  | cons d word =>
    rw [← (List.cons.inj he).1] at hs
    exact hc word marks hs

/-- Characters with which no word begins are passed over. -/
theorem readings_append_of_forall {gap : List Char}
    (hg : ∀ c ∈ gap, ∀ (word : List Char) (marks : Marks σ), ¬Spells p (c :: word) marks)
    (rest : List Char) : p.readings (gap ++ rest) = p.readings rest := by
  induction gap with
  | nil => rfl
  | cons c gap ih =>
    rw [List.forall_mem_cons] at hg
    rw [List.cons_append, readings_cons_of_forall hn hg.1, ih hg.2]

/-- Where a word can be read its marks are followed by the readings behind. -/
theorem readings_append_of_first? {word rest : List Char} {marks : Marks σ}
    (hr : first? p (word ++ rest) = some (marks, rest)) :
    p.readings (word ++ rest) = marks :: p.readings rest := by
  obtain ⟨word', hne, he, -⟩ := exists_of_first? hn hr
  rw [← List.append_cancel_right he] at hne
  rw [readings, scan, scanFrom_of_first? hne hr, List.map_cons]
  exact congrArg (marks :: ·) (map_marks_scanFrom hn _ _ rest)

end Readings

/-- At a word a determined pattern reads to the end of the word and marks what
is marked in it. -/
theorem Determined.first?_of_spells (hd : Determined p) {word : List Char} {marks : Marks σ}
    (hs : Spells p word marks) (behind : List Char) :
    first? p (word ++ behind) = some (marks, behind) := by
  have hsome : (first? p (word ++ behind)).isSome = true :=
    (first?_isSome_iff p _).mpr ⟨word, behind, marks, rfl, hs⟩
  obtain ⟨run, hr⟩ := Option.isSome_iff_exists.mp hsome
  obtain ⟨word', he, hs'⟩ := spells_of_first? hr
  obtain ⟨hb, hm⟩ := hd.same hs hs' he
  rw [hr, hb, hm]

/-- In a word of a determined pattern the scan finds the word alone. -/
theorem Determined.scan_of_spells (hd : Determined p) {word : List Char} {marks : Marks σ}
    (hs : Spells p word marks) : p.scan word = [⟨⟨0, byteLength word⟩, marks⟩] := by
  have hne : word ≠ [] := fun h => hd.nonempty marks (h ▸ hs)
  have h := scanFrom_of_first? hne (hd.first?_of_spells hs []) 0 true
  have hnil : scanFrom p (0 + byteLength word) 0 false [] = [] := by
    simp only [scanFrom, first?_nil_eq_none hd.nonempty]
  rw [List.append_nil, hnil, Nat.zero_add] at h
  exact h

namespace Pinned

variable (hp : Pinned p) {word : List Char} {marks : Marks σ}

include hp

/-- The words of a pinned pattern are nonempty. -/
theorem ne_nil (hs : Spells p word marks) : word ≠ [] := by
  intro hw
  rw [hw] at hs
  exact hp.nonempty _ hs

/-- A pinned pattern is determined. -/
theorem determined : Determined p where
  nonempty := hp.nonempty
  same := by
    intro word behind word' behind' marks marks' hs hs' he
    have htext : [] ++ (word ++ behind) = [] ++ (word' ++ behind') := he
    rcases hp.apart_or_same hs hs' htext with ⟨between, hb⟩ | ⟨between, hb⟩ | h
    · rw [List.nil_append] at hb
      exact absurd (List.append_eq_nil_iff.mp hb.symm).1 (hp.ne_nil hs)
    · rw [List.nil_append] at hb
      exact absurd (List.append_eq_nil_iff.mp hb.symm).1 (hp.ne_nil hs')
    · exact h

/-- A text that ends where a word of a pinned pattern is cut short, the word
having begun at its front, has no readings. -/
theorem readings_eq_nil_of_spells_append {front rest : List Char} (hr : rest ≠ [])
    (hs : Spells p (front ++ rest) marks) : p.readings front = [] := by
  have hnone : ∀ before word' behind : List Char, ∀ marks' : Marks σ,
      front = before ++ (word' ++ behind) → ¬Spells p word' marks' := by
    intro before word' behind marks' he hs'
    have hword' := hp.ne_nil hs'
    have htext : [] ++ ((front ++ rest) ++ []) = before ++ (word' ++ (behind ++ rest)) := by
      rw [List.nil_append, List.append_nil, he, List.append_assoc, List.append_assoc]
    rcases hp.apart_or_same hs hs' htext with ⟨between, hb⟩ | ⟨between, hb⟩ | ⟨hb, -⟩
    · have hlength := congrArg List.length hb
      have hfront := congrArg List.length he
      have hpos := List.length_pos_iff.mpr hr
      simp only [List.length_append, List.length_nil] at hlength hfront
      omega
    · exact hword' (List.append_eq_nil_iff.mp (List.append_eq_nil_iff.mp hb.symm).2).1
    · exact hr (List.append_eq_nil_iff.mp hb.symm).2
  clear hs
  induction front with
  | nil => exact readings_nil hp.nonempty
  | cons c front ih =>
    have hunreadable : first? p (c :: front) = none := by
      rw [← Option.not_isSome_iff_eq_none, first?_isSome_iff]
      rintro ⟨word', behind, marks', he, hs'⟩
      exact hnone [] word' behind marks' he hs'
    rw [readings_cons_of_none hp.nonempty hunreadable]
    refine ih fun before word' behind marks' he => ?_
    exact hnone (c :: before) word' behind marks' (by rw [he, List.cons_append])

/-- A word inserted into a text is read, and what is read in front of it and
behind it is what is read there without it. -/
theorem readings_insert (hs : Spells p word marks) (front rest : List Char) :
    p.readings (front ++ (word ++ rest)) = p.readings front ++ marks :: p.readings rest := by
  induction hl : front.length using Nat.strongRecOn generalizing front with
  | ind n ih =>
    have hword := hp.ne_nil hs
    cases front with
    | nil =>
      rw [List.nil_append, readings_nil hp.nonempty, List.nil_append]
      exact readings_append_of_first? hp.nonempty (hp.determined.first?_of_spells hs rest)
    | cons c front =>
      have hshort : front.length < n := by rw [← hl]; exact Nat.lt_succ_self _
      cases hr : first? p (c :: front ++ (word ++ rest)) with
      | none =>
        have hfront : first? p (c :: front) = none := by
          rw [← Option.not_isSome_iff_eq_none, first?_isSome_iff] at hr ⊢
          rintro ⟨word', behind, marks', he, hs'⟩
          exact hr ⟨word', behind ++ (word ++ rest), marks', by rw [he, List.append_assoc], hs'⟩
        rw [readings_cons_of_none hp.nonempty hfront, ← ih _ hshort front rfl]
        exact readings_cons_of_none hp.nonempty hr
      | some run =>
        obtain ⟨marks', tail⟩ := run
        obtain ⟨word', hne, he, hs'⟩ := exists_of_first? hp.nonempty hr
        have htext : [] ++ (word' ++ tail) = c :: front ++ (word ++ rest) := he.symm
        rcases hp.apart_or_same hs' hs htext with
          ⟨between, hb⟩ | ⟨between, hb⟩ | ⟨hb, hm⟩
        · rw [List.nil_append] at hb
          have htail : tail = between ++ (word ++ rest) := by
            rw [hb, List.append_assoc] at he
            exact (List.append_cancel_left he).symm
          have hlength := congrArg List.length hb
          have hpos := List.length_pos_iff.mpr hne
          rw [hl, List.length_append] at hlength
          rw [hb, List.append_assoc,
            readings_append_of_first? hp.nonempty (hp.determined.first?_of_spells hs' _),
            readings_append_of_first? hp.nonempty (hp.determined.first?_of_spells hs' _),
            ih _ (by omega) between rfl, List.cons_append]
        · exact absurd (List.append_eq_nil_iff.mp hb.symm).1 (List.cons_ne_nil c front)
        · simp only at hb hm he hs'
          subst hb hm
          have hwhole : word' = c :: front ++ word := by
            rw [← List.append_assoc] at he
            exact (List.append_cancel_right he).symm
          rw [hwhole] at hs'
          rw [hp.readings_eq_nil_of_spells_append hword hs', ← List.append_assoc]
          exact readings_append_of_first? hp.nonempty (hp.determined.first?_of_spells hs' _)

end Pinned

end HeaderExports.Pattern
