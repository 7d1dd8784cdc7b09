import HeaderExports.Proofs.Canonical.Members
import HeaderExports.Proofs.Canonical.Silence
import HeaderExports.Proofs.Grammar.Constants

/-!
# What each pattern reads of a canonical line

Of a line of its own kind a pattern reads the declaration and marks its parts.
In lines of other kinds it reads nothing. There is one law for each of the
eight patterns, over all kinds of lines and every fresh text behind.
-/

namespace HeaderExports.Canonical

open Grammar Pattern
open Text (isWord)

/-! ## What is marked -/

namespace Declaration

/-- What the pattern of functions marks in a line. -/
def functionMarks : Declaration → Option (Marks Part)
  | function announcer type name parameters =>
    some (FunctionForm.parts ⟨announcer, type, name, list parameters⟩)
  | _ => none

/-- What the pattern of constants marks in a line. -/
def constantMarks : Declaration → Option (Marks Part)
  | constant name value => some [(.name, name.chars), (.value, value.chars)]
  | _ => none

/-- What the pattern of function pointer types marks in a line. -/
def callbackMarks : Declaration → Option (Marks Part)
  | callback type name parameters =>
    some (CallbackForm.parts ⟨type, space.toStretch, name, list parameters⟩)
  | _ => none

/-- What the pattern of enumerations marks in a line. -/
def enumMarks : Declaration → Option (Marks Part)
  | enum name members => some (BracedForm.parts ⟨name, space.toStretch, membersBody members⟩)
  | _ => none

/-- What the pattern of type names for enumerations marks in a line. -/
def enumAliasMarks : Declaration → Option (Marks Part)
  | enumAlias tag name => some (AliasForm.parts ⟨tag, name⟩)
  | _ => none

/-- What the pattern of structs marks in a line. -/
def structMarks : Declaration → Option (Marks Part)
  | struct name fields => some (BracedForm.parts ⟨name, space.toStretch, fieldsBody fields⟩)
  | _ => none

/-- What the pattern of type names for structs marks in a line. -/
def structAliasMarks : Declaration → Option (Marks Part)
  | structAlias tag name => some (AliasForm.parts ⟨tag, name⟩)
  | _ => none

/-- What the pattern of structs with a type name marks in a line. -/
def aliasedStructMarks : Declaration → Option (Marks Part)
  | aliasedStruct tag fields name =>
    some (AliasedStructForm.parts
      ⟨tag.map fun tag => (space, tag), space.toStretch, fieldsBody fields, space.toStretch, name⟩)
  | _ => none

end Declaration

/-! ## Lines without an anchor -/

/-- A text without a character is not divided by it. -/
theorem ne_append_cons {l front rest : List Char} {x : Char} (hx : x ∉ l) :
    l ≠ front ++ x :: rest := by
  rintro rfl
  exact hx (List.mem_append_right front List.mem_cons_self)

namespace Declaration

/-- A line without its end. -/
def written (marker : ExportMarker) (declaration : Declaration) : List Char :=
  declaration.text marker ++ match declaration with
    | callback .. => [';']
    | _ => []

/-- A line is what is written and its end. -/
theorem line_eq (marker : ExportMarker) (declaration : Declaration) :
    declaration.line marker = declaration.written marker ++ ['\n'] := by
  unfold line written
  rw [List.append_assoc]
  cases declaration <;> rfl

/-- What a line may not hold does not divide it. -/
theorem written_ne (marker : ExportMarker) (declaration : Declaration) {x : Char}
    (hx : declaration.mayHold x = false) (front rest : List Char) :
    declaration.written marker ≠ front ++ x :: rest := by
  refine ne_append_cons fun hm => declaration.not_mem_line marker hx ?_
  rw [line_eq]
  exact List.mem_append_left _ hm

/-- A pattern that is silent in a line reads nothing of it. -/
theorem readsLine_of_silent {p : Pattern Part} {marker : ExportMarker} {declaration : Declaration}
    {after : List Char} (hs : Silent p (declaration.written marker ++ ['\n']) after) :
    ReadsLine p none (declaration.text marker) declaration.ending after := by
  rwa [← line_eq] at hs

end Declaration

/-! ## Functions -/

section Function

variable (marker : ExportMarker) {after : List Char}

/-- The pattern of functions reads the functions. -/
theorem readsLine_function (declaration : Declaration) :
    ReadsLine (functionPattern marker) declaration.functionMarks (declaration.text marker)
      declaration.ending after := by
  cases declaration with
  | function announcer type name parameters =>
    refine And.intro ?_ (@silent_function [] after marker fun form front rest => ?_)
    · exact (determined_functionPattern marker).first?_of_spells
        ((writes_functionPattern marker).spells _) _
    · exact ne_append_cons List.not_mem_nil
  | callback type name parameters =>
    have hl := callback_ne_function marker ⟨type, space.toStretch, name, list parameters⟩ rfl
    exact Declaration.readsLine_of_silent (silent_function marker hl)
  | constant | enum | enumAlias | struct | structAlias | aliasedStruct =>
    exact Declaration.readsLine_of_silent (silent_function marker fun form front rest =>
      Declaration.written_ne marker _ rfl _ rest)

end Function

/-! ## Function pointer types -/

section Fresh

variable (marker : ExportMarker) {after : List Char} (hf : Fresh after)

include hf

/-- The pattern of function pointer types reads the function pointer types. -/
theorem readsLine_callback (declaration : Declaration) :
    ReadsLine callbackPattern declaration.callbackMarks (declaration.text marker)
      declaration.ending after := by
  cases declaration with
  | callback type name parameters =>
    refine And.intro ?_ (@silent_callback [';'] after hf fun form front rest behind he => ?_)
    · exact pinned_callbackPattern.determined.first?_of_spells (writes_callbackPattern.spells _) _
    · exact absurd he (ne_append_cons (by decide))
  | function announcer type name parameters =>
    exact silent_callback hf fun form front rest behind he =>
      function_ne_callback marker ⟨announcer, type, name, list parameters⟩ form he
  | constant | enum | enumAlias | struct | structAlias | aliasedStruct =>
    exact Declaration.readsLine_of_silent (silent_callback hf fun form front rest behind he =>
      absurd he (Declaration.written_ne marker _ rfl _ rest))

/-! ## Declarations with a body -/

/-- The pattern of enumerations reads the enumerations. -/
theorem readsLine_enum (declaration : Declaration) :
    ReadsLine enumPattern declaration.enumMarks (declaration.text marker)
      declaration.ending after := by
  have hk : '\n' ∉ "enum ".toList := by decide
  cases declaration with
  | enum name members =>
    refine And.intro ?_ (@silent_braced inEnumBody [] after _ hk hf
      fun form front rest behind he => absurd he (ne_append_cons List.not_mem_nil))
    exact pinned_enumPattern.determined.first?_of_spells ((writes_braced _).spells _) _
  | struct name fields =>
    have hne := @other_keyword inStructBody inEnumBody "struct " "enum " "struct".toList
      "enum".toList rfl rfl (by decide) (by decide) (by decide) (by decide)
      ⟨name, space.toStretch, fieldsBody fields⟩
    exact silent_braced hk hf fun form front rest behind he => absurd he (hne form front rest)
  | aliasedStruct tag fields name =>
    refine silent_braced hk hf fun form front rest behind he => ?_
    rw [(aliasedStruct_split he).2]
    exact (AliasedStructForm.tail_append_ne _ form.members.toStretch (by decide) _ _).symm
  | function | callback | constant | enumAlias | structAlias =>
    exact Declaration.readsLine_of_silent (silent_braced hk hf fun form front rest behind he =>
      absurd he (Declaration.written_ne marker _ rfl _ rest))

/-- The pattern of structs reads the structs without a type name. -/
theorem readsLine_struct (declaration : Declaration) :
    ReadsLine structPattern declaration.structMarks (declaration.text marker)
      declaration.ending after := by
  have hk : '\n' ∉ "struct ".toList := by decide
  cases declaration with
  | struct name fields =>
    refine And.intro ?_ (@silent_braced inStructBody [] after _ hk hf
      fun form front rest behind he => absurd he (ne_append_cons List.not_mem_nil))
    exact pinned_structPattern.determined.first?_of_spells ((writes_braced _).spells _) _
  | enum name members =>
    have hne := @other_keyword inEnumBody inStructBody "enum " "struct " "enum".toList
      "struct".toList rfl rfl (by decide) (by decide) (by decide) (by decide)
      ⟨name, space.toStretch, membersBody members⟩
    exact silent_braced hk hf fun form front rest behind he => absurd he (hne form front rest)
  | aliasedStruct tag fields name =>
    refine silent_braced hk hf fun form front rest behind he => ?_
    rw [(aliasedStruct_split he).2]
    exact (AliasedStructForm.tail_append_ne _ form.members.toStretch (by decide) _ _).symm
  | function | callback | constant | enumAlias | structAlias =>
    exact Declaration.readsLine_of_silent (silent_braced hk hf fun form front rest behind he =>
      absurd he (Declaration.written_ne marker _ rfl _ rest))

/-- The pattern of structs with a type name reads those, with a tag or without
one. -/
theorem readsLine_aliasedStruct (declaration : Declaration) :
    ReadsLine aliasedStructPattern declaration.aliasedStructMarks (declaration.text marker)
      declaration.ending after := by
  cases declaration with
  | aliasedStruct tag fields name =>
    refine And.intro ?_ (@silent_aliasedStruct [] after hf
      fun form front rest behind he => absurd he (ne_append_cons List.not_mem_nil))
    exact determined_aliasedStructPattern.first?_of_spells (writes_aliasedStructPattern.spells _) _
  | enum name members =>
    refine silent_aliasedStruct hf fun form front rest behind he => ?_
    rw [(braced_split (by decide) (by decide) he).2]
    exact form.tail_append_ne (membersBody members).toStretch (by decide) _ _
  | struct name fields =>
    refine silent_aliasedStruct hf fun form front rest behind he => ?_
    rw [(braced_split (by decide) (by decide) he).2]
    exact form.tail_append_ne (fieldsBody fields).toStretch (by decide) _ _
  | function | callback | constant | enumAlias | structAlias =>
    exact Declaration.readsLine_of_silent (silent_aliasedStruct hf fun form front rest behind he =>
      absurd he (Declaration.written_ne marker _ rfl _ rest))

end Fresh

/-! ## Type names -/

section Aliases

variable (marker : ExportMarker) {after : List Char}

/-- A pattern of type names is silent in the lines of other kinds. -/
theorem readsLine_other {keyword : String} (hk : keyword.toList ≠ [])
    (hw : ∀ c ∈ keyword.toList, isWord c = true) (declaration : Declaration)
    (he : declaration.enumAliasMarks = none) (hs : declaration.structAliasMarks = none) :
    ReadsLine (aliasPattern keyword) none (declaration.text marker) declaration.ending after := by
  have hnewline : '\n' ∉ keyword.toList := fun h => absurd (hw _ h) (by decide)
  cases declaration with
  | function announcer type name parameters =>
    exact silent_alias hnewline
      (function_ne_alias marker ⟨announcer, type, name, list parameters⟩)
  | callback type name parameters =>
    have hl := @callback_ne_alias keyword ⟨type, space.toStretch, name, list parameters⟩
    exact Declaration.readsLine_of_silent (silent_alias hnewline hl)
  | enum name members =>
    exact silent_alias hnewline (braced_ne_alias (by decide) (by decide)
      ⟨name, space.toStretch, membersBody members⟩)
  | struct name fields => exact silent_alias hnewline (struct_ne_alias hk hw name fields)
  | aliasedStruct tag fields name =>
    exact silent_alias hnewline (aliasedStruct_ne_alias hk hw _ fields name)
  | constant =>
    exact Declaration.readsLine_of_silent (silent_alias hnewline fun form front rest =>
      Declaration.written_ne marker _ rfl _ rest)
  | enumAlias => cases he
  | structAlias => cases hs

/-- The pattern of type names for enumerations reads those. -/
theorem readsLine_enumAlias (declaration : Declaration) :
    ReadsLine enumAliasPattern declaration.enumAliasMarks (declaration.text marker)
      declaration.ending after := by
  have hk : "enum".toList ≠ [] := by decide
  have hw : "enum".toList.all isWord = true := by decide
  have hnewline : '\n' ∉ "enum".toList := by decide
  cases declaration with
  | enumAlias tag name =>
    refine And.intro ?_ (@silent_alias "enum" [] after hnewline
      fun form front rest => ne_append_cons List.not_mem_nil)
    exact pinned_enumAliasPattern.determined.first?_of_spells ((writes_aliasPattern _).spells _) _
  | structAlias tag name =>
    exact silent_alias hnewline
      (@other_tag "enum" "struct" hk (by decide) (by decide) ⟨tag, name⟩)
  | function | callback | constant | enum | struct | aliasedStruct =>
    exact readsLine_other marker hk (List.all_eq_true.mp hw) _ rfl rfl

/-- The pattern of type names for structs reads those. -/
theorem readsLine_structAlias (declaration : Declaration) :
    ReadsLine structAliasPattern declaration.structAliasMarks (declaration.text marker)
      declaration.ending after := by
  have hk : "struct".toList ≠ [] := by decide
  have hw : "struct".toList.all isWord = true := by decide
  have hnewline : '\n' ∉ "struct".toList := by decide
  cases declaration with
  | structAlias tag name =>
    refine And.intro ?_ (@silent_alias "struct" [] after hnewline
      fun form front rest => ne_append_cons List.not_mem_nil)
    exact pinned_structAliasPattern.determined.first?_of_spells ((writes_aliasPattern _).spells _) _
  | enumAlias tag name =>
    exact silent_alias hnewline
      (@other_tag "struct" "enum" hk (by decide) (by decide) ⟨tag, name⟩)
  | function | callback | constant | enum | struct | aliasedStruct =>
    exact readsLine_other marker hk (List.all_eq_true.mp hw) _ rfl rfl

end Aliases

/-! ## Constants -/

section Constant

variable (marker : ExportMarker) {after : List Char}

/-- A constant begins with its directive. -/
theorem exists_of_spells_constant {word : List Char} {marks : Marks Part}
    (hs : Spells constantPattern word marks) : ∃ rest, word = '#' :: rest := by
  obtain ⟨form, rfl, -⟩ := writes_constantPattern.exists_of_spells hs
  exact ⟨_, rfl⟩

/-- No constant is empty. -/
theorem constant_ne_nil (marks : Marks Part) : ¬Spells constantPattern [] marks :=
  writes_constantPattern.not_spells_nil ConstantForm.text_ne_nil marks

/-- A line without a number sign is silent for constants. -/
theorem silent_constant {line : List Char} (hl : '#' ∉ line) :
    Silent constantPattern line after := by
  refine silent_of_forall constant_ne_nil (fun c hc rest marks hs => ?_) after
  obtain ⟨more, he⟩ := exists_of_spells_constant hs
  rw [(List.cons.inj he).1] at hc
  exact hl hc

/-- A constant as its pattern writes it. -/
def constantForm (name value : Name) : ConstantForm :=
  ⟨name, .ofAll [' '] (by decide), .word value⟩

/-- The preferred reading of a constant is its name and its value. -/
theorem prefers_constant (name value : Name) (after : List Char) :
    Prefers constantPattern (Declaration.constantText name value)
      [(.name, name.chars), (.value, value.chars)] ('\n' :: after) :=
  prefers_constantForm (constantForm name value) fun c hc => by
    cases hc
    decide

/-- The pattern of constants reads the constants. -/
theorem readsLine_constant (declaration : Declaration) :
    ReadsLine constantPattern declaration.constantMarks (declaration.text marker)
      declaration.ending after := by
  cases declaration with
  | constant name value =>
    exact And.intro (prefers_constant name value after).first?_eq
      (silent_constant (by decide : '#' ∉ ['\n']))
  | function | callback | enum | struct | enumAlias | structAlias | aliasedStruct =>
    exact silent_constant (Declaration.not_mem_line marker _ rfl)

end Constant

end HeaderExports.Canonical
