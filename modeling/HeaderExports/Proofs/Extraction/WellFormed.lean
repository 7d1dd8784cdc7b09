import HeaderExports.Proofs.Grammar.Members
import HeaderExports.Proofs.Pattern.Division
import HeaderExports.Proofs.Structs.Exclusive

/-!
# Extracted headers are well-formed

Every leaf of an extracted header has the shape of its kind, and all of them
are on one line. Names, types and values are captured twice, once with the list
or body around them and once on their own, and are put on one line in between;
the shapes survive both because no part that is captured holds a blank where it
could be shortened, but for string literals and for the gap behind a sign, which
is dropped.
-/

namespace HeaderExports

open Grammar Pattern
open Text (isWord isLineBreaking oneLine oneLine_append oneLine_of_not_blank Kept kept_of_not_blank
  mem_dropBlanks isLineBreaking_of_mem_oneLine)

/-! ## Shapes -/

/-- A leaf of characters of one class, at least one of them. -/
def IsToken (inside : Char → Bool) (leaf : String) : Prop :=
  ∃ token : Token inside, leaf = String.ofList token.chars

/-- A leaf that is a name. -/
abbrev IsName (leaf : String) : Prop := IsToken isWord leaf

/-- A leaf that is a name with stars behind it. -/
def IsStarredName (leaf : String) : Prop := ∃ type : StarredName, leaf = String.ofList type.chars

/-- A leaf that is a type with its stars, with the qualifier or without it. -/
def IsReturnType (leaf : String) : Prop := ∃ type : ReturnType, leaf = String.ofList type.chars

/-- A leaf that is empty or a word, with a sign or without one. -/
def IsEnumeratorValue (leaf : String) : Prop :=
  leaf = "" ∨ ∃ (negative : Bool) (n : Name), leaf = String.ofList (signText negative ++ n.chars)

/-- A leaf of stars and further characters of a field's name. If there is an
opening bracket it is the name of one array of fixed size. -/
structure IsFieldName (leaf : String) : Prop where
  /-- Stars stand in front of the other characters. -/
  starred : ∃ (stars : ℕ) (label : Token inFieldName),
    leaf = String.ofList (List.replicate stars '*' ++ label.chars)
  /-- Brackets are those of an array. -/
  array : '[' ∈ leaf.toList → ∃ form : FixedSizeForm, leaf = String.ofList form.text

/-- A parameter of the right shape. -/
structure Parameter.WellFormed (parameter : Parameter) : Prop where
  /-- The type. -/
  type : IsToken inParameterType parameter.type
  /-- The name. -/
  name : IsToken inParameterName parameter.name

/-- A function of the right shape. -/
structure FunctionDecl.WellFormed (function : FunctionDecl) : Prop where
  /-- The name. -/
  name : IsName function.name
  /-- The return type. -/
  returnType : IsReturnType function.returnType
  /-- The parameters. -/
  parameters : ∀ parameter ∈ function.parameters, parameter.WellFormed

/-- A constant of the right shape. -/
structure ConstantDecl.WellFormed (constant : ConstantDecl) : Prop where
  /-- The name. -/
  name : IsName constant.name
  /-- The value. -/
  value : IsName constant.value ∨ constant.isStringLiteral = true

/-- A function pointer type of the right shape. -/
structure CallbackDecl.WellFormed (callback : CallbackDecl) : Prop where
  /-- The return type. -/
  returnType : IsReturnType callback.returnType
  /-- The name. -/
  name : IsName callback.name
  /-- The parameters. -/
  parameters : ∀ parameter ∈ callback.parameters, parameter.WellFormed

/-- An enumerator of the right shape. -/
structure Enumerator.WellFormed (enumerator : Enumerator) : Prop where
  /-- The name. -/
  name : IsName enumerator.name
  /-- The value. -/
  value : IsEnumeratorValue enumerator.value

/-- An enumeration of the right shape. -/
structure EnumDecl.WellFormed (enum : EnumDecl) : Prop where
  /-- The tag. -/
  name : IsName enum.name
  /-- The members. -/
  values : ∀ enumerator ∈ enum.values, enumerator.WellFormed

/-- A type name for an enumeration of the right shape. -/
structure EnumAlias.WellFormed (enumAlias : EnumAlias) : Prop where
  /-- The tag. -/
  tag : IsName enumAlias.tag
  /-- The type name. -/
  typeName : IsName enumAlias.typeName

/-- A field of the right shape. -/
structure Field.WellFormed (field : Field) : Prop where
  /-- The type. -/
  type : IsStarredName field.type
  /-- The name. -/
  name : IsFieldName field.name

/-- A struct of the right shape. -/
structure StructDecl.WellFormed (struct : StructDecl) : Prop where
  /-- The tag. -/
  name : IsName struct.name
  /-- The members. -/
  fields : ∀ field ∈ struct.fields, field.WellFormed

/-- A type name for a struct of the right shape. -/
structure StructAlias.WellFormed (structAlias : StructAlias) : Prop where
  /-- The tag. -/
  tag : IsName structAlias.tag
  /-- The type name. -/
  typeName : IsName structAlias.typeName

/-- A struct with a type name of the right shape. Only its tag may be
missing. -/
structure AliasedStruct.WellFormed (struct : AliasedStruct) : Prop where
  /-- The tag. -/
  tag : struct.tag = "" ∨ IsName struct.tag
  /-- The type name. -/
  typeName : IsName struct.typeName
  /-- The members. -/
  fields : ∀ field ∈ struct.fields, field.WellFormed

/-- A header whose declarations have the right shapes. -/
structure Header.WellFormed (header : Header) : Prop where
  /-- Exported functions. -/
  functions : ∀ function ∈ header.functions, function.WellFormed
  /-- Constants. -/
  constants : ∀ constant ∈ header.constants, constant.WellFormed
  /-- Function pointer types. -/
  callbacks : ∀ callback ∈ header.callbacks, callback.WellFormed
  /-- Enumerations. -/
  enums : ∀ enum ∈ header.enums, enum.WellFormed
  /-- Type names for enumerations. -/
  enumAliases : ∀ enumAlias ∈ header.enumAliases, enumAlias.WellFormed
  /-- Structs without a type name of their own. -/
  structs : ∀ struct ∈ header.structs, struct.WellFormed
  /-- Type names for structs. -/
  structAliases : ∀ structAlias ∈ header.structAliases, structAlias.WellFormed
  /-- Structs declared with a type name. -/
  aliasedStructs : ∀ struct ∈ header.aliasedStructs, struct.WellFormed

/-! ## Leaves -/

/-- The leaves of a parameter. -/
def Parameter.leaves (parameter : Parameter) : List String := [parameter.type, parameter.name]

/-- The leaves of a field. -/
def Field.leaves (field : Field) : List String := [field.type, field.name]

/-- The leaves of an enumerator. -/
def Enumerator.leaves (enumerator : Enumerator) : List String := [enumerator.name, enumerator.value]

/-- All leaves of a header. -/
def Header.leaves (header : Header) : List String :=
  header.functions.flatMap (fun function =>
      function.name :: function.returnType :: function.parameters.flatMap Parameter.leaves) ++
    header.constants.flatMap (fun constant => [constant.name, constant.value]) ++
    header.callbacks.flatMap (fun callback =>
      callback.returnType :: callback.name :: callback.parameters.flatMap Parameter.leaves) ++
    header.enums.flatMap (fun enum => enum.name :: enum.values.flatMap Enumerator.leaves) ++
    header.enumAliases.flatMap (fun enumAlias => [enumAlias.tag, enumAlias.typeName]) ++
    header.structs.flatMap (fun struct => struct.name :: struct.fields.flatMap Field.leaves) ++
    header.structAliases.flatMap (fun structAlias => [structAlias.tag, structAlias.typeName]) ++
    header.aliasedStructs.flatMap (fun struct =>
      struct.tag :: struct.typeName :: struct.fields.flatMap Field.leaves)

/-- The parameters of all functions and function pointer types of a header. -/
def Header.parameters (header : Header) : List Parameter :=
  header.functions.flatMap (·.parameters) ++ header.callbacks.flatMap (·.parameters)

/-- The fields of all structs of a header. -/
def Header.fields (header : Header) : List Field :=
  header.structs.flatMap (·.fields) ++ header.aliasedStructs.flatMap (·.fields)

namespace Header.WellFormed

variable {header : Header} (hw : header.WellFormed)

include hw

/-- The parameters of a header have the right shape. -/
theorem parameters : ∀ parameter ∈ header.parameters, parameter.WellFormed := by
  simp only [Header.parameters, List.forall_mem_append, List.forall_mem_flatMap]
  exact ⟨fun function hm => (hw.functions function hm).parameters,
    fun callback hm => (hw.callbacks callback hm).parameters⟩

/-- The fields of a header have the right shape. -/
theorem fields : ∀ field ∈ header.fields, field.WellFormed := by
  simp only [Header.fields, List.forall_mem_append, List.forall_mem_flatMap]
  exact ⟨fun struct hm => (hw.structs struct hm).fields,
    fun struct hm => (hw.aliasedStructs struct hm).fields⟩

end Header.WellFormed

/-- A leaf that holds no tab and no line end. -/
def OnOneLine (leaf : String) : Prop := ∀ c ∈ leaf.toList, isLineBreaking c = false

/-- Every part of a declaration is a leaf on one line. -/
theorem Occurrence.onOneLine_leaf (found : Occurrence Part) (label : Part) :
    OnOneLine (found.leaf label) := by
  intro c hc
  rw [leaf, String.toList_ofList] at hc
  exact isLineBreaking_of_mem_oneLine hc

namespace Grammar

section OnOneLine

variable (grammar : Grammar)

/-- The leaves of a parameter list are on one line. -/
theorem onOneLine_parameters (list : List Char) :
    ∀ parameter ∈ grammar.parameters list, ∀ leaf ∈ parameter.leaves, OnOneLine leaf :=
  List.forall_mem_map.mpr fun found _ => List.forall_mem_cons.mpr
    ⟨found.onOneLine_leaf _, List.forall_mem_singleton.mpr (found.onOneLine_leaf _)⟩

/-- The leaves of the body of a struct are on one line. -/
theorem onOneLine_fields (body : List Char) :
    ∀ field ∈ grammar.fields body, ∀ leaf ∈ field.leaves, OnOneLine leaf :=
  List.forall_mem_map.mpr fun found _ => List.forall_mem_cons.mpr
    ⟨found.onOneLine_leaf _, List.forall_mem_singleton.mpr (found.onOneLine_leaf _)⟩

/-- The leaves of the body of an enumeration are on one line. -/
theorem onOneLine_enumerators (body : List Char) :
    ∀ enumerator ∈ grammar.enumerators body, ∀ leaf ∈ enumerator.leaves, OnOneLine leaf := by
  refine List.forall_mem_map.mpr fun found _ => List.forall_mem_cons.mpr
    ⟨found.onOneLine_leaf _, List.forall_mem_singleton.mpr fun c hc => ?_⟩
  rw [String.toList_ofList, mem_dropBlanks] at hc
  exact isLineBreaking_of_mem_oneLine hc.1

/-- Whatever its patterns are, a grammar extracts leaves on one line. -/
theorem onOneLine_extract (content : String) :
    ∀ leaf ∈ (grammar.extract content).leaves, OnOneLine leaf := by
  simp only [Header.leaves, List.forall_mem_append, List.forall_mem_flatMap, extract, declarations,
    functions, constants, callbacks, enums, enumAliases, structDecl, aliasedStructDecl,
    List.forall_mem_map, List.forall_mem_cons, Occurrence.onOneLine_leaf, true_and,
    List.not_mem_nil, false_implies, implies_true, and_true]
  exact ⟨⟨⟨⟨fun found _ => onOneLine_parameters grammar _, fun found _ =>
    onOneLine_parameters grammar _⟩, fun found _ => onOneLine_enumerators grammar _⟩,
    fun found _ => onOneLine_fields grammar _⟩, fun found _ => onOneLine_fields grammar _⟩

end OnOneLine

/-! ## Members -/

section Members

variable (marker : ExportMarker) (keepsComments : Bool)

/-- The parameters of a list have the right shape. -/
theorem wellFormed_parameters (list : List Char) :
    ∀ parameter ∈ (withMarker marker keepsComments).parameters list, parameter.WellFormed := by
  refine List.forall_mem_map.mpr (forall_mem_scan writes_parameterPattern
    ParameterForm.text_ne_nil (fun span form => ⟨⟨form.type, ?_⟩, ⟨form.name, ?_⟩⟩) list)
  · exact congrArg String.ofList (oneLine_parameterType form.type)
  · exact congrArg String.ofList (oneLine_parameterName form.name)

/-- The members of an enumeration have the right shape. -/
theorem wellFormed_enumerators (body : List Char) :
    ∀ enumerator ∈ (withMarker marker keepsComments).enumerators body,
      enumerator.WellFormed := by
  refine List.forall_mem_map.mpr (forall_mem_scan writes_enumeratorPattern
    EnumeratorForm.text_ne_nil (fun span form => ?_) body)
  obtain ⟨name, gap, _ | ⟨space, value⟩⟩ := form
  · exact ⟨⟨name, congrArg String.ofList (oneLine_name name)⟩, .inl rfl⟩
  · exact ⟨⟨name, congrArg String.ofList (oneLine_name name)⟩,
      .inr ⟨value.negative, value.word, congrArg String.ofList value.dropBlanks_oneLine⟩⟩

/-- The name of a field that is not left out has the right shape. -/
theorem isFieldName_of_supportsFieldName {form : FieldForm}
    (hs : (withMarker marker keepsComments).supportsFieldName form.nameChars = true) :
    IsFieldName (String.ofList form.nameChars) where
  starred := ⟨form.stars, form.label, rfl⟩
  array := by
    intro hbracket
    rw [String.toList_ofList] at hbracket
    rw [supportsFieldName, List.contains_iff_mem.mpr hbracket, Bool.not_true, Bool.false_or] at hs
    obtain ⟨marks, hspells⟩ := (accepts_iff _ _).mp hs
    obtain ⟨array, he, -⟩ := writes_fixedSizePattern.exists_of_spells hspells
    exact ⟨array, congrArg String.ofList he⟩

/-- The fields of a struct have the right shape. -/
theorem wellFormed_fields (body : List Char) :
    ∀ field ∈ (withMarker marker keepsComments).fields body, field.WellFormed := by
  have hforms : ∀ found ∈ fieldPattern.scan body,
      (withMarker marker keepsComments).supportsFieldName (found.part .name) = true →
        Field.WellFormed ⟨found.leaf .type, found.leaf .name⟩ := by
    refine forall_mem_scan writes_fieldPattern FieldForm.text_ne_nil (fun span form hs => ?_) body
    have htype := congrArg String.ofList (oneLine_of_not_blank form.type.not_blank)
    change (withMarker marker keepsComments).supportsFieldName (oneLine form.nameChars) = true at hs
    change Field.WellFormed ⟨_, String.ofList (oneLine form.nameChars)⟩
    rw [form.oneLine_nameChars] at hs ⊢
    exact ⟨⟨form.type, htype⟩, isFieldName_of_supportsFieldName marker keepsComments hs⟩
  refine List.forall_mem_map.mpr fun found hm => ?_
  obtain ⟨hm, hs⟩ := List.mem_filter.mp hm
  exact hforms found hm hs

end Members

/-! ## Declarations -/

section Declarations

variable (marker : ExportMarker) (keepsComments : Bool) (text : List Char)

/-- Functions have the right shape. -/
theorem wellFormed_functions :
    ∀ function ∈ (withMarker marker keepsComments).functions text, function.WellFormed := by
  refine List.forall_mem_map.mpr (forall_mem_scan (writes_functionPattern marker)
    (FunctionForm.text_ne_nil marker)
    (fun span form => ⟨⟨form.name, ?_⟩, ⟨form.type, ?_⟩, ?_⟩) text)
  · exact congrArg String.ofList (oneLine_name form.name)
  · exact congrArg String.ofList (oneLine_returnType form.type)
  · exact wellFormed_parameters marker keepsComments _

/-- What is quoted in front of and behind a text is quoted on one line. -/
theorem isQuoted_oneLine (text : List Char) :
    ConstantDecl.isQuoted (String.ofList (oneLine ('"' :: (text ++ ['"'])))) = true := by
  have hquote : Kept ['"'] := kept_of_not_blank (List.forall_mem_singleton.mpr (by decide))
  have hline : oneLine ('"' :: (text ++ ['"'])) = '"' :: (oneLine text ++ ['"']) :=
    (hquote _).trans (congrArg _ (oneLine_append (.inr (by decide))))
  rw [ConstantDecl.isQuoted, String.toList_ofList, hline]
  have hlast : ('"' :: (oneLine text ++ ['"'])).getLast? = some '"' := by
    rw [← List.cons_append, List.getLast?_concat]
  have hlong : 2 ≤ ('"' :: (oneLine text ++ ['"'])).length := by
    rw [List.length_cons, List.length_append]
    exact Nat.succ_le_succ (Nat.le_add_left 1 _)
  simp only [hlast, hlong, List.head?_cons, decide_true, beq_self_eq_true, Bool.and_self]

/-- Constants have the right shape. -/
theorem wellFormed_constants :
    ∀ constant ∈ (withMarker marker keepsComments).constants text, constant.WellFormed := by
  refine List.forall_mem_map.mpr (forall_mem_scan writes_constantPattern ConstantForm.text_ne_nil
    (fun span form => ⟨⟨form.name, ?_⟩, ?_⟩) text)
  · exact congrArg String.ofList (oneLine_name form.name)
  · obtain ⟨name, gap, chars | word⟩ := form
    · exact .inr (isQuoted_oneLine _)
    · exact .inl ⟨word, congrArg String.ofList (oneLine_name word)⟩

/-- Function pointer types have the right shape. -/
theorem wellFormed_callbacks :
    ∀ callback ∈ (withMarker marker keepsComments).callbacks text, callback.WellFormed := by
  refine List.forall_mem_map.mpr (forall_mem_scan writes_callbackPattern CallbackForm.text_ne_nil
    (fun span form => ⟨⟨form.type, ?_⟩, ⟨form.name, ?_⟩, ?_⟩) text)
  · exact congrArg String.ofList (oneLine_returnType form.type)
  · exact congrArg String.ofList (oneLine_name form.name)
  · exact wellFormed_parameters marker keepsComments _

/-- Enumerations have the right shape. -/
theorem wellFormed_enums :
    ∀ enum ∈ (withMarker marker keepsComments).enums text, enum.WellFormed := by
  refine List.forall_mem_map.mpr (forall_mem_scan (writes_braced "enum ")
    (BracedForm.text_ne_nil (by decide)) (fun span form => ⟨⟨form.name, ?_⟩, ?_⟩) text)
  · exact congrArg String.ofList (oneLine_name form.name)
  · exact wellFormed_enumerators marker keepsComments _

/-- The leaves of a type name for a tag are names. -/
theorem isName_of_mem_scan_alias (keyword : String) :
    ∀ found ∈ (aliasPattern keyword).scan text,
      IsName (found.leaf .tag) ∧ IsName (found.leaf .name) :=
  forall_mem_scan (writes_aliasPattern keyword) (AliasForm.text_ne_nil keyword)
    (fun _ form => ⟨⟨form.tag, congrArg String.ofList (oneLine_name form.tag)⟩,
      ⟨form.name, congrArg String.ofList (oneLine_name form.name)⟩⟩) text

/-- Type names for enumerations have the right shape. -/
theorem wellFormed_enumAliases :
    ∀ enumAlias ∈ (withMarker marker keepsComments).enumAliases text, enumAlias.WellFormed :=
  List.forall_mem_map.mpr fun found hm =>
    have h := isName_of_mem_scan_alias text "enum" found hm
    ⟨h.1, h.2⟩

/-- Structs have the right shape. -/
theorem wellFormed_structDecl :
    ∀ found ∈ structPattern.scan text,
      ((withMarker marker keepsComments).structDecl found).WellFormed := by
  refine forall_mem_scan (writes_braced "struct ")
    (BracedForm.text_ne_nil (by decide)) (fun span form => ⟨⟨form.name, ?_⟩, ?_⟩) text
  · exact congrArg String.ofList (oneLine_name form.name)
  · exact wellFormed_fields marker keepsComments _

/-- Structs with a type name have the right shape. -/
theorem wellFormed_aliasedStructDecl :
    ∀ found ∈ aliasedStructPattern.scan text,
      ((withMarker marker keepsComments).aliasedStructDecl found).WellFormed := by
  refine forall_mem_scan writes_aliasedStructPattern AliasedStructForm.text_ne_nil
    (fun span form => ⟨?_, ⟨form.name, ?_⟩, ?_⟩) text
  · obtain ⟨_ | ⟨space, tag⟩, gap, members, behind, name⟩ := form
    · exact .inl rfl
    · exact .inr ⟨tag, congrArg String.ofList (oneLine_name tag)⟩
  · obtain ⟨_ | tag, gap, members, behind, name⟩ := form <;>
      exact congrArg String.ofList (oneLine_name name)
  · exact wellFormed_fields marker keepsComments _

/-- Every leaf of an extracted header has its shape, whatever the content: names,
types, values and fields are of the forms of their kinds, and only the tag of a
struct with a type name and the value of an enumerator may be missing. No leaf
holds a tab or a line end. -/
theorem wellFormed_extract (content : String) :
    let header := (withMarker marker keepsComments).extract content
    header.WellFormed ∧ ∀ leaf ∈ header.leaves, OnOneLine leaf := by
  refine ⟨?_, onOneLine_extract _ content⟩
  generalize hv : (withMarker marker keepsComments).visibleText content.toList = text
  obtain ⟨haliased, haliases, hbare, -⟩ :=
    structPlaces_phases (withMarker marker keepsComments) text
  rw [extract, hv]
  refine ⟨wellFormed_functions marker keepsComments text,
    wellFormed_constants marker keepsComments text, wellFormed_callbacks marker keepsComments text,
    wellFormed_enums marker keepsComments text, wellFormed_enumAliases marker keepsComments text,
    List.forall_mem_map.mpr fun found hm => ?_, List.forall_mem_map.mpr fun found hm => ?_,
    List.forall_mem_map.mpr fun found hm => ?_⟩
  · rw [hbare] at hm
    exact wellFormed_structDecl marker keepsComments text found (List.mem_of_mem_filter hm)
  · rw [haliases] at hm
    have h := isName_of_mem_scan_alias text "struct" found (List.mem_of_mem_filter hm)
    exact ⟨h.1, h.2⟩
  · rw [haliased] at hm
    exact wellFormed_aliasedStructDecl marker keepsComments text found (List.mem_of_mem_filter hm)

end Declarations

end Grammar

end HeaderExports
