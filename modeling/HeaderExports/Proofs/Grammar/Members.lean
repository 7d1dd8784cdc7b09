import HeaderExports.Proofs.Grammar.Pinned
import HeaderExports.Proofs.Text.OneLine

/-!
# The words of the member patterns

Parameters, enumerators and fields are written from data as declarations are.
What is marked in them holds no blank, but for a space behind a qualifier and
blanks behind a sign, so that it stays as it is when it is put on one line.
-/

namespace HeaderExports.Grammar

open Pattern
open Text (isBlank dropBlanks oneLine oneLine_of_not_blank kept_of_not_blank kept_space_cons
  not_isWord_of_isBlank isBlank_of_isWord)

/-! ## Parameters -/

/-- What a parameter is written from. -/
structure ParameterForm where
  /-- Whether the qualifier stands in front. -/
  qualified : Bool
  /-- The type. -/
  type : Token inParameterType
  /-- The name. -/
  name : Token inParameterName

/-- The text of a parameter. -/
def ParameterForm.text (form : ParameterForm) : List Char :=
  qualifierText form.qualified ++ (form.type.chars ++ (" ".toList ++ form.name.chars))

/-- The parts of a parameter. -/
def ParameterForm.parts (form : ParameterForm) : Marks Part :=
  [(.type, form.type.chars), (.name, form.name.chars)]

/-- A parameter has a character. -/
theorem ParameterForm.text_ne_nil (form : ParameterForm) : form.text ≠ [] :=
  List.append_ne_nil_of_right_ne_nil _ (List.append_ne_nil_of_left_ne_nil form.type.nonempty _)

/-- The parameter pattern behind its qualifier writes a type and a name. -/
theorem writes_parameter :
    Writes (chain [.mark .type (plus (.one inParameterType)), Pattern.lit " ",
        .mark .name (plus (.one inParameterName))])
      (fun x : Token inParameterType × Token inParameterName =>
        x.1.chars ++ (" ".toList ++ x.2.chars))
      (fun x => [(Part.type, x.1.chars), (Part.name, x.2.chars)]) :=
  ((Writes.token inParameterType).mark Part.type).cons
    (Writes.lit " " ((Writes.token inParameterName).mark Part.name).last)

/-- Parameters are written from their forms. -/
theorem writes_parameterPattern :
    Writes parameterPattern ParameterForm.text ParameterForm.parts :=
  (writes_qualifier.cons writes_parameter).along
    (fun form : ParameterForm => (form.qualified, form.type, form.name))
    fun ⟨qualified, type, name⟩ => ⟨⟨qualified, type, name⟩, rfl⟩

/-! ## Enumerators -/

/-- The value of an enumerator. -/
structure SignedValue where
  /-- Whether a sign stands in front. -/
  negative : Bool
  /-- What stands behind the sign. -/
  gap : Stretch isBlank
  /-- The word. -/
  word : Name

/-- The sign or nothing. -/
def signText (negative : Bool) : List Char := if negative then "-".toList else []

/-- The value as it is written. -/
def SignedValue.chars (value : SignedValue) : List Char :=
  signText value.negative ++ (value.gap.chars ++ value.word.chars)

/-- What an enumerator is written from. -/
structure EnumeratorForm where
  /-- The name. -/
  name : Name
  /-- What stands behind the name. -/
  gap : Stretch isBlank
  /-- The value with what stands in front of it, if one is written. -/
  value : Option (Stretch isBlank × SignedValue)

/-- The text of an enumerator. -/
def EnumeratorForm.text (form : EnumeratorForm) : List Char :=
  form.name.chars ++ (form.gap.chars ++
    form.value.elim [] fun value => "=".toList ++ (value.1.chars ++ value.2.chars))

/-- The parts of an enumerator. -/
def EnumeratorForm.parts (form : EnumeratorForm) : Marks Part :=
  (.name, form.name.chars) :: form.value.elim [] fun value => [(.value, value.2.chars)]

/-- An enumerator has a character. -/
theorem EnumeratorForm.text_ne_nil (form : EnumeratorForm) : form.text ≠ [] :=
  List.append_ne_nil_of_left_ne_nil form.name.nonempty _

/-- Values are written with or without a sign. -/
theorem writes_signedValue :
    Writes (chain [optional (Pattern.lit "-"), blanks, word]) SignedValue.chars (fun _ => []) :=
  ((writes_optional_lit "-").cons ((Writes.stretch isBlank).cons writes_word.last)).along
    (fun value : SignedValue => (value.negative, value.gap, value.word))
    fun ⟨negative, gap, word⟩ => ⟨⟨negative, gap, word⟩, rfl⟩

/-- Enumerators are written from their forms. -/
theorem writes_enumeratorPattern :
    Writes enumeratorPattern EnumeratorForm.text EnumeratorForm.parts := by
  have hvalue := (Writes.stretch isBlank).cons (writes_signedValue.mark Part.value).last
  have hgap := (Writes.stretch isBlank).cons (Writes.lit "=" hvalue).optional.last
  exact (writes_name.cons hgap).along
    (fun form : EnumeratorForm => (form.name, form.gap, form.value))
    fun ⟨name, gap, value⟩ => ⟨⟨name, gap, value⟩, rfl⟩

/-! ## Fields -/

/-- What a field is written from. -/
structure FieldForm where
  /-- Whether the qualifier stands in front. -/
  qualified : Bool
  /-- The type. -/
  type : StarredName
  /-- What stands behind the type. -/
  gap : Token isBlank
  /-- The number of stars at the name. -/
  stars : ℕ
  /-- The name behind its stars. -/
  label : Token inFieldName

/-- The name of a field with its stars. -/
def FieldForm.nameChars (form : FieldForm) : List Char :=
  List.replicate form.stars '*' ++ form.label.chars

/-- The text of a field. -/
def FieldForm.text (form : FieldForm) : List Char :=
  qualifierText form.qualified ++
    (form.type.chars ++ (form.gap.chars ++ (form.nameChars ++ (";".toList ++ []))))

/-- The parts of a field. -/
def FieldForm.parts (form : FieldForm) : Marks Part :=
  [(.type, form.type.chars), (.name, form.nameChars)]

/-- A field has a character. -/
theorem FieldForm.text_ne_nil (form : FieldForm) : form.text ≠ [] :=
  List.append_ne_nil_of_right_ne_nil _
    (List.append_ne_nil_of_left_ne_nil form.type.chars_ne_nil _)

/-- What the field pattern has behind its qualifier. -/
def unqualifiedField : List (Pattern Part) :=
  [.mark .type starredWord, someBlanks, .mark .name (chain [stars, plus (.one inFieldName)]),
    Pattern.lit ";"]

/-- The field pattern behind its qualifier writes a type, blanks and a name. -/
theorem writes_unqualifiedField :
    Writes (chain unqualifiedField)
      (fun x : StarredName × Token isBlank × (ℕ × Token inFieldName) × Unit =>
        x.1.chars ++ (x.2.1.chars ++
          ((List.replicate x.2.2.1.1 '*' ++ x.2.2.1.2.chars) ++ (";".toList ++ []))))
      (fun x => [(Part.type, x.1.chars),
        (Part.name, List.replicate x.2.2.1.1 '*' ++ x.2.2.1.2.chars)]) :=
  (writes_starredWord.mark Part.type).cons ((Writes.token isBlank).cons
    (((writes_stars.cons (Writes.token inFieldName).last).mark Part.name).cons
      (Writes.lit ";" .nil)))

/-- Fields are written from their forms. -/
theorem writes_fieldPattern : Writes fieldPattern FieldForm.text FieldForm.parts :=
  (writes_qualifier.cons writes_unqualifiedField).along
    (fun form : FieldForm => (form.qualified, form.type, form.gap, (form.stars, form.label), ()))
    fun ⟨qualified, type, gap, (stars, label), ()⟩ => ⟨⟨qualified, type, gap, stars, label⟩, rfl⟩

/-- The name of a field that is one array of fixed size. -/
structure FixedSizeForm where
  /-- The number of stars. -/
  stars : ℕ
  /-- The name of the array. -/
  base : Name
  /-- The size of the array. -/
  size : Name

/-- The name as it is written. -/
def FixedSizeForm.text (form : FixedSizeForm) : List Char :=
  List.replicate form.stars '*' ++
    (form.base.chars ++ ("[".toList ++ (form.size.chars ++ ("]".toList ++ []))))

/-- Names of arrays are written from their forms. -/
theorem writes_fixedSizePattern : Writes fixedSizePattern FixedSizeForm.text (fun _ => []) :=
  (writes_stars.cons (writes_word.cons (Writes.lit "["
    (writes_word.cons (Writes.lit "]" .nil))))).along
    (fun form : FixedSizeForm => (form.stars, form.base, form.size, ()))
    fun ⟨stars, base, size, ()⟩ => ⟨⟨stars, base, size⟩, rfl⟩

/-! ## Parts on one line -/

/-- A name is on one line. -/
theorem oneLine_name (n : Name) : oneLine n.chars = n.chars :=
  oneLine_of_not_blank (Name.not_blank n)

/-- A return type is on one line. -/
theorem oneLine_returnType (type : ReturnType) : oneLine type.chars = type.chars := by
  have hconst : ∀ c ∈ "const".toList, ¬isBlank c = true := by
    have h : "const".toList.all (fun c => !isBlank c) = true := by decide
    intro c hc
    rw [Bool.not_eq_true, ← Bool.not_eq_true']
    exact List.all_eq_true.mp h c hc
  obtain ⟨qualified, starred⟩ := type
  cases qualified with
  | false => exact oneLine_of_not_blank starred.not_blank
  | true =>
    have hword := kept_space_cons starred.chars_ne_nil starred.not_blank
    exact ((kept_of_not_blank hconst).append hword).oneLine_eq

/-- A character of a parameter's name is no blank. -/
theorem not_blank_of_inParameterName {c : Char} (hc : inParameterName c = true) :
    ¬isBlank c = true := by
  intro hb
  simp only [inParameterName, Bool.or_eq_true, beq_iff_eq] at hc
  rcases hc with ((hc | rfl) | rfl) | rfl
  · rw [(not_isWord_of_isBlank hb).1] at hc
    exact Bool.noConfusion hc
  · exact absurd hb (by decide)
  · exact absurd hb (by decide)
  · exact absurd hb (by decide)

/-- A blank does not stand in a parameter's name. -/
theorem not_inParameterName_of_isBlank {c : Char} (hc : isBlank c = true) :
    inParameterName c = false := by
  rw [← Bool.not_eq_true]
  exact fun hin => not_blank_of_inParameterName hin hc

/-- A character of a parameter's type may stand in its name. -/
theorem inParameterName_of_type {c : Char} (hc : inParameterType c = true) :
    inParameterName c = true := by
  simp only [inParameterType, inParameterName, Bool.or_eq_true] at hc ⊢
  tauto

/-- A blank does not stand in a parameter's type. -/
theorem not_inParameterType_of_isBlank {c : Char} (hc : isBlank c = true) :
    inParameterType c = false := by
  rw [← Bool.not_eq_true]
  exact fun hin => not_blank_of_inParameterName (inParameterName_of_type hin) hc

/-- A character of a field's name may stand in a parameter's name. -/
theorem inParameterName_of_fieldName {c : Char} (hc : inFieldName c = true) :
    inParameterName c = true := by
  simp only [inFieldName, inParameterName, Bool.or_eq_true] at hc ⊢
  tauto

/-- A parameter's type is on one line. -/
theorem oneLine_parameterType (type : Token inParameterType) : oneLine type.chars = type.chars :=
  oneLine_of_not_blank fun c hc =>
    not_blank_of_inParameterName (inParameterName_of_type (type.inside_of_mem c hc))

/-- A parameter's name is on one line. -/
theorem oneLine_parameterName (name : Token inParameterName) : oneLine name.chars = name.chars :=
  oneLine_of_not_blank fun c hc => not_blank_of_inParameterName (name.inside_of_mem c hc)

/-- No character of a field's name is a blank. -/
theorem FieldForm.not_blank_of_mem_nameChars (form : FieldForm) :
    ∀ c ∈ form.nameChars, ¬isBlank c = true := by
  refine List.forall_mem_append.mpr ⟨fun c hc => ?_, fun c hc => ?_⟩
  · rw [List.eq_of_mem_replicate hc]
    decide
  · exact not_blank_of_inParameterName
      (inParameterName_of_fieldName (form.label.inside_of_mem c hc))

/-- A field's name is on one line. -/
theorem FieldForm.oneLine_nameChars (form : FieldForm) :
    oneLine form.nameChars = form.nameChars :=
  oneLine_of_not_blank form.not_blank_of_mem_nameChars

/-- A value without its blanks is its sign and its word. -/
theorem SignedValue.dropBlanks_oneLine (value : SignedValue) :
    dropBlanks (oneLine value.chars) = signText value.negative ++ value.word.chars := by
  have hsign : dropBlanks (signText value.negative) = signText value.negative := by
    cases value.negative <;> rfl
  have hgap : dropBlanks value.gap.chars = [] :=
    List.filter_eq_nil_iff.mpr fun c hc => by
      rw [value.gap.inside_of_mem c hc]
      exact Bool.false_ne_true
  have hword : dropBlanks value.word.chars = value.word.chars :=
    List.filter_eq_self.mpr fun c hc => by
      rw [isBlank_of_isWord (value.word.inside_of_mem c hc), Bool.not_false]
  rw [Text.dropBlanks_oneLine, chars, dropBlanks, List.filter_append, List.filter_append,
    ← dropBlanks, ← dropBlanks, ← dropBlanks, hsign, hgap, hword, List.nil_append]

end HeaderExports.Grammar
