import HeaderExports.Proofs.Grammar.Preferred
import HeaderExports.Proofs.Text.Comments

/-!
# How constants are read

A string literal ends at the first quote that nothing escapes. The scan for
comments and the pattern of string literals look for it in different ways, the
one with a state and the other with rounds of a repetition, and find the same
one. So a literal of the pattern is a lexeme, it is read in one way, and a
constant is read up to the end of its value.
-/

namespace HeaderExports.Grammar

open Pattern
open Text (EndsLiteral Lexeme RunsOn endsLiteral_backslash_cons endsLiteral_cons_of_ne escapes
  escapes_backslash_cons escapes_cons_of_ne first_stop_inj isBlank_of_isWord runsOn_cons_iff
  runsOn_nil)

/-! ## String literals -/

/-- The characters of a string literal hold no quote that ends it, and no
backslash is left over at their end. -/
theorem runsOn_literalChars (chars : List LiteralChar) :
    RunsOn (EndsLiteral '"') (chars.flatMap LiteralChar.text) ∧
      escapes (chars.flatMap LiteralChar.text) = false := by
  induction chars with
  | nil => exact ⟨runsOn_nil, rfl⟩
  | cons char chars ih =>
    obtain ⟨hr, he⟩ := ih
    rw [List.flatMap_cons]
    cases char with
    | plain c free =>
      obtain ⟨hquote, hslash, hline⟩ := free
      change RunsOn _ (c :: _) ∧ escapes (c :: _) = false
      rw [runsOn_cons_iff, endsLiteral_cons_of_ne hslash, escapes_cons_of_ne hslash]
      exact ⟨⟨fun h => h.2.elim hquote hline, hr⟩, he⟩
    | escaped c sameLine =>
      change RunsOn _ ('\\' :: c :: _) ∧ escapes ('\\' :: c :: _) = false
      rw [runsOn_cons_iff, runsOn_cons_iff, escapes_backslash_cons]
      have hopen : ¬EndsLiteral '"' [] '\\' := fun h => h.2.elim (by decide) (by decide)
      have hescaped : ¬EndsLiteral '"' ['\\'] c := fun h => Bool.noConfusion h.1
      have hbehind : RunsOn (fun before => EndsLiteral '"' ('\\' :: c :: before))
          (chars.flatMap LiteralChar.text) := by rwa [endsLiteral_backslash_cons]
      exact ⟨⟨hopen, hescaped, hbehind⟩, he⟩

/-- The quote behind the characters of a string literal ends it. -/
theorem endsLiteral_literalChars (chars : List LiteralChar) :
    EndsLiteral '"' (chars.flatMap LiteralChar.text) '"' :=
  ⟨(runsOn_literalChars chars).2, .inl rfl⟩

/-- A string literal as the lexeme that it is. -/
def literalLexeme (chars : List LiteralChar) : Lexeme :=
  .literal '"' (chars.flatMap LiteralChar.text) (some '"')

/-- A string literal is a lexeme, whatever stands behind it. -/
theorem fits_literalLexeme (chars : List LiteralChar) (rest : List Char) :
    (literalLexeme chars).Fits rest :=
  ⟨rfl, (runsOn_literalChars chars).1, endsLiteral_literalChars chars⟩

/-- String literals are determined by where they begin. -/
theorem determined_stringLiteral : Determined stringLiteral where
  nonempty := writes_stringLiteral.not_spells_nil fun _ => List.cons_ne_nil _ _
  same := by
    intro word b word' b' marks marks' hs hs' he
    obtain ⟨chars, rfl, rfl⟩ := writes_stringLiteral.exists_of_spells hs
    obtain ⟨chars', rfl, rfl⟩ := writes_stringLiteral.exists_of_spells hs'
    simp only [ConstantValue.chars, List.cons_append, List.append_assoc, List.nil_append,
      List.cons.injEq, true_and] at he
    obtain ⟨-, -, hb⟩ := first_stop_inj (runsOn_literalChars chars).1
      (runsOn_literalChars chars').1 (endsLiteral_literalChars chars)
      (endsLiteral_literalChars chars') he
    exact ⟨hb, rfl⟩

/-! ## Constants -/

/-- A value begins with a quote or a word character. -/
theorem ConstantValue.not_inConstantGap_of_head (value : ConstantValue) (rest : List Char) :
    ∀ c ∈ (value.chars ++ rest).head?, inConstantGap c = false := by
  cases value with
  | literal chars =>
    intro c hc
    cases hc
    decide
  | word chars =>
    intro c hc
    have hword := inside_of_head chars rest c hc
    rw [inConstantGap, Bool.or_eq_false_iff, beq_eq_false_iff_ne, beq_eq_false_iff_ne]
    constructor
    · rintro rfl
      exact absurd hword (by decide)
    · rintro rfl
      exact absurd hword (by decide)

/-- A value is read to its end: a literal up to its closing quote, a word up to
the first other character. -/
theorem prefers_constantValue (value : ConstantValue) {rest : List Char}
    (hr : ∀ c ∈ rest.head?, Text.isWord c = false) :
    Prefers (.alt stringLiteral word) value.chars [] rest := by
  cases value with
  | literal chars =>
    exact (determined_stringLiteral.prefers (writes_stringLiteral.spells chars) rest).altLeft _
  | word chars =>
    have hword : Prefers word chars.chars [] rest :=
      prefers_plus_one chars.nonempty chars.inside_of_mem hr
    refine hword.altRight fun word' behind marks' he hs => ?_
    obtain ⟨literal, rfl, -⟩ := writes_stringLiteral.exists_of_spells hs
    exact absurd (inside_of_head chars rest '"' (by rw [he]; rfl)) (by decide)

/-- The preferred reading of a constant is the constant, if its value does not
go on. -/
theorem prefers_constantForm (form : ConstantForm) {rest : List Char}
    (hr : ∀ c ∈ rest.head?, Text.isWord c = false) :
    Prefers constantPattern form.text form.parts rest := by
  obtain ⟨name, gap, value⟩ := form
  have hvalue := ((prefers_constantValue value hr).mark Part.value).last
  have hgap : Prefers (σ := Part) (plus (.one inConstantGap)) gap.chars [] (value.chars ++ rest) :=
    prefers_plus_one gap.nonempty gap.inside_of_mem (value.not_inConstantGap_of_head rest)
  refine ((prefers_name name fun c hc => ?_).cons (hgap.cons hvalue)).lit "#define "
  rw [List.append_assoc] at hc
  have hin := inside_of_head gap _ c hc
  rw [inConstantGap, Bool.or_eq_true, beq_iff_eq, beq_iff_eq] at hin
  rcases hin with rfl | rfl <;> decide

end HeaderExports.Grammar
