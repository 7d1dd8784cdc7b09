import HeaderExports.Proofs.Pattern.Lines
import Mathlib.Data.Set.List

/-!
# A scan divides a text

A scan cuts a text into words of its pattern and the gaps around them. Every
word is reported once, at its place and with its parts, and no word begins in a
gap, however far it would reach. So nothing is passed over but what begins
inside a word that is reported.
-/

namespace HeaderExports.Pattern

open Text (byteLength)

variable {σ α : Type} {p : Pattern σ} {text : α → List Char} {parts : α → Marks σ}

/-- What is marked in a word is a part of it. -/
theorem isInfix_of_mem_marks {word : List Char} {marks : Marks σ} (hs : Spells p word marks) :
    ∀ mark ∈ marks, mark.2 <:+: word := by
  induction hs with
  | empty | one | starStop => exact List.forall_mem_nil _
  | altLeft _ ih | altRight _ ih => exact ih
  | seq _ _ ihLeft ihRight =>
    exact List.forall_mem_append.mpr
      ⟨fun mark hm => (ihLeft mark hm).trans (List.prefix_append _ _).isInfix,
        fun mark hm => (ihRight mark hm).trans (List.suffix_append _ _).isInfix⟩
  | starMore _ _ _ ihRound ihMore =>
    exact List.forall_mem_append.mpr
      ⟨fun mark hm => (ihRound mark hm).trans (List.prefix_append _ _).isInfix,
        fun mark hm => (ihMore mark hm).trans (List.suffix_append _ _).isInfix⟩
  | mark _ ih =>
    exact List.forall_mem_append.mpr ⟨ih, List.forall_mem_singleton.mpr List.infix_rfl⟩

/-- No text written from a form begins in a gap, however far it would reach
into what stands behind the gap. -/
def NoneBegins (text : α → List Char) (gap after : List Char) : Prop :=
  ∀ (front : List Char) (form : α) (behind : List Char),
    gap ++ after = front ++ (text form ++ behind) → gap.length ≤ front.length

/-- A text divided, from a place on, into gaps and texts written from forms.
Each of the latter is reported with the bytes that it covers and its parts. -/
inductive Division (text : α → List Char) (parts : α → Marks σ) :
    ℕ → List Char → List (Occurrence σ) → Prop where
  /-- The gap behind the last word. -/
  | last {place : ℕ} {gap : List Char} (silent : NoneBegins text gap []) :
      Division text parts place gap []
  /-- A gap and the word behind it. -/
  | word {place : ℕ} {gap rest : List Char} {form : α} {found : Occurrence σ}
      {others : List (Occurrence σ)} (silent : NoneBegins text gap (text form ++ rest))
      (start : found.span.start = place + byteLength gap)
      (stop : found.span.stop = found.span.start + byteLength (text form))
      (marks : found.marks = parts form)
      (more : Division text parts found.span.stop rest others) :
      Division text parts place (gap ++ (text form ++ rest)) (found :: others)

/-- Every occurrence of a division is written from a form. -/
theorem Division.exists_of_mem {place : ℕ} {whole : List Char} {others : List (Occurrence σ)}
    (hd : Division text parts place whole others) :
    ∀ found ∈ others, ∃ form, found.marks = parts form := by
  induction hd with
  | last => exact List.forall_mem_nil _
  | @word _ _ _ form _ _ _ _ _ marks _ ih => exact List.forall_mem_cons.mpr ⟨⟨form, marks⟩, ih⟩

section Scan

variable (hw : Writes p text parts)

include hw

/-- A gap may be longer by a character at which nothing can be read. -/
theorem noneBegins_cons {c : Char} {gap after : List Char}
    (hr : first? p (c :: (gap ++ after)) = none) (hg : NoneBegins text gap after) :
    NoneBegins text (c :: gap) after := by
  intro front form behind he
  cases front with
  | nil =>
    have hread : (first? p (c :: (gap ++ after))).isSome = true :=
      (first?_isSome_iff p _).mpr ⟨text form, behind, parts form, he, hw.spells form⟩
    rw [hr] at hread
    exact absurd hread Bool.false_ne_true
  | cons d front =>
    rw [List.cons_append, List.cons_append] at he
    exact Nat.succ_le_succ (hg front form behind (List.cons.inj he).2)

/-- A division of the text behind a character at which nothing can be read is
one of the whole text. -/
theorem Division.cons {place : ℕ} {c : Char} {rest : List Char} {others : List (Occurrence σ)}
    (hr : first? p (c :: rest) = none)
    (hd : Division text parts (place + c.utf8Size) rest others) :
    Division text parts place (c :: rest) others := by
  cases hd with
  | last silent =>
    rw [← List.append_nil rest] at hr
    exact .last (noneBegins_cons hw hr silent)
  | word silent start stop marks more =>
    rw [Nat.add_assoc] at start
    rw [← List.cons_append]
    exact .word (noneBegins_cons hw hr silent) start stop marks more

variable (hn : ∀ form, text form ≠ [])

include hn

/-- From any place on, a scan divides the text that is left. -/
theorem division_scanFrom (place : ℕ) (fresh : Bool) (whole : List Char) :
    Division text parts place whole (scanFrom p place 0 fresh whole) := by
  have hempty := hw.not_spells_nil hn
  induction hl : whole.length using Nat.strongRecOn generalizing whole place fresh with
  | ind n ih =>
    cases whole with
    | nil =>
      rw [scanFrom, first?_nil_eq_none hempty]
      exact .last fun front form behind _ => Nat.zero_le _
    | cons c rest =>
      have hshort : rest.length < n := by rw [← hl]; exact Nat.lt_succ_self _
      cases step p place fresh c rest with
      | pass unreadable onward =>
        rw [onward]
        exact Division.cons hw unreadable (ih _ hshort _ _ rest rfl)
      | empty marks read _ =>
        obtain ⟨word, hne, he, -⟩ := exists_of_first? hempty read
        exact absurd (List.self_eq_append_left.mp he) hne
      | word word tail marks nonempty split read onward =>
        have hlength := congrArg List.length split
        have hpos := List.length_pos_iff.mpr nonempty
        rw [List.length_append, hl] at hlength
        obtain ⟨word', he, hs⟩ := spells_of_first? read
        rw [split] at he
        obtain rfl := List.append_cancel_right he
        obtain ⟨form, rfl, rfl⟩ := hw.exists_of_spells hs
        have hnone : NoneBegins text [] (text form ++ tail) := fun front _ _ _ => Nat.zero_le _
        rw [onward, split]
        exact .word hnone rfl rfl rfl (ih _ (by omega) _ _ tail rfl)

/-- A scan divides the text. -/
theorem division_scan (whole : List Char) : Division text parts 0 whole (p.scan whole) :=
  division_scanFrom hw hn 0 true whole

/-- What holds of the parts of every form holds of all that a scan reports. -/
theorem forall_mem_scan {P : Occurrence σ → Prop} (hp : ∀ span form, P ⟨span, parts form⟩)
    (whole : List Char) : ∀ found ∈ p.scan whole, P found := by
  rintro ⟨span, marks⟩ hm
  obtain ⟨form, rfl⟩ : ∃ form, marks = parts form :=
    (division_scan hw hn whole).exists_of_mem ⟨span, marks⟩ hm
  exact hp span form

/-- What is read of a text are the parts of forms. -/
theorem exists_readings (whole : List Char) :
    ∃ forms : List α, p.readings whole = forms.map parts := by
  have hparts : ∀ marks ∈ p.readings whole, marks ∈ Set.range parts :=
    List.forall_mem_map.mpr (forall_mem_scan hw hn (fun span form => ⟨form, rfl⟩) whole)
  obtain ⟨forms, hf⟩ : p.readings whole ∈ Set.range (List.map parts) := by
    rw [Set.range_list_map]
    exact hparts
  exact ⟨forms, hf.symm⟩

end Scan

end HeaderExports.Pattern
