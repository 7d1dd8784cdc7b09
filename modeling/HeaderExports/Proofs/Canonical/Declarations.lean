import HeaderExports.Declaration
import HeaderExports.Proofs.Grammar.Words

/-!
# Canonical declarations

A canonical declaration is given by its leaves alone. It is written in one way:
single spaces, members behind commas or in front of semicolons, and a line of
its own. What a list of canonical declarations declares is said kind by kind,
without looking at the text.
-/

namespace HeaderExports.Canonical

open Grammar Pattern
open Text (isBlank isWord)

/-! ## Members -/

/-- Items with a comma and a space between them. -/
def separated : List (List Char) → List Char
  | [] => []
  | first :: more => first ++ more.flatMap fun item => ',' :: ' ' :: item

/-- A separated list holds the characters of its items, commas and spaces. -/
theorem of_mem_separated {items : List (List Char)} {c : Char} (hc : c ∈ separated items) :
    c = ',' ∨ c = ' ' ∨ ∃ item ∈ items, c ∈ item := by
  cases items with
  | nil => cases hc
  | cons first more =>
    rcases List.mem_append.mp hc with h | h
    · exact .inr (.inr ⟨first, List.mem_cons_self, h⟩)
    · obtain ⟨item, hm, h⟩ := List.mem_flatMap.mp h
      rcases List.mem_cons.mp h with h | h
      · exact .inl h
      · rcases List.mem_cons.mp h with h | h
        · exact .inr (.inl h)
        · exact .inr (.inr ⟨item, List.mem_cons_of_mem first hm, h⟩)

/-- A parameter. -/
structure Parameter where
  /-- The type, stars included. -/
  type : Token inParameterType
  /-- The name, with any stars or brackets at it. -/
  name : Token inParameterName

/-- The text of a parameter. -/
def Parameter.text (parameter : Parameter) : List Char :=
  parameter.type.chars ++ ' ' :: parameter.name.chars

/-- What a parameter declares. -/
def Parameter.leaves (parameter : Parameter) : HeaderExports.Parameter :=
  ⟨String.ofList parameter.type.chars, String.ofList parameter.name.chars⟩

/-- The text of a parameter list. -/
def listText (parameters : List Parameter) : List Char := separated (parameters.map Parameter.text)

/-- A member of an enumeration. -/
structure Member where
  /-- The name. -/
  name : Name
  /-- The value, if one is written, with its sign. -/
  value : Option (Bool × Name)

/-- The value of a member, empty if none is written. -/
def Member.valueText (member : Member) : List Char :=
  member.value.elim [] fun value => (if value.1 then ['-'] else []) ++ value.2.chars

/-- The text of a member. -/
def Member.text (member : Member) : List Char :=
  member.name.chars ++
    member.value.elim [] fun _ => ' ' :: '=' :: ' ' :: member.valueText

/-- What a member declares. -/
def Member.leaves (member : Member) : Enumerator :=
  ⟨String.ofList member.name.chars, String.ofList member.valueText⟩

/-- The text of the body of an enumeration. -/
def membersText : List Member → List Char
  | [] => [' ']
  | members => ' ' :: (separated (members.map Member.text) ++ [' '])

/-- What a field is called behind its stars. -/
inductive Label where
  /-- A name without an opening bracket. -/
  | plain (chars : Token fun c => isWord c || c == ']')
  /-- A name and the size of the array. -/
  | array (base size : Name)

/-- The label as it is written. -/
def Label.text : Label → List Char
  | plain chars => chars.chars
  | array base size => base.chars ++ '[' :: (size.chars ++ [']'])

/-- A field of a struct. -/
structure Field where
  /-- The type, stars included. -/
  type : StarredName
  /-- The number of stars at the name. -/
  stars : ℕ
  /-- The label. -/
  label : Label

/-- The name of a field with its stars. -/
def Field.nameText (field : Field) : List Char :=
  List.replicate field.stars '*' ++ field.label.text

/-- The text of a field. -/
def Field.text (field : Field) : List Char :=
  field.type.chars ++ ' ' :: (field.nameText ++ [';'])

/-- What a field declares. -/
def Field.leaves (field : Field) : HeaderExports.Field :=
  ⟨String.ofList field.type.chars, String.ofList field.nameText⟩

/-- The text of the body of a struct. -/
def fieldsText (fields : List Field) : List Char :=
  (fields.flatMap fun field => ' ' :: field.text) ++ [' ']

/-! ## Lists and bodies as their patterns take them -/

/-- A parameter list holds no other characters than its pattern allows. -/
theorem inParameterList_of_mem {parameters : List Parameter} {c : Char}
    (hc : c ∈ listText parameters) : inParameterList c = true := by
  rcases of_mem_separated hc with rfl | rfl | ⟨item, hm, hc⟩
  · decide
  · decide
  · obtain ⟨parameter, -, rfl⟩ := List.mem_map.mp hm
    rcases List.mem_append.mp hc with h | h
    · have hin := parameter.type.inside_of_mem c h
      simp only [inParameterType, inParameterList, Bool.or_eq_true] at hin ⊢
      tauto
    · rcases List.mem_cons.mp h with rfl | h
      · decide
      · have hin := parameter.name.inside_of_mem c h
        simp only [inParameterName, inParameterList, Bool.or_eq_true] at hin ⊢
        tauto

/-- The parameter list as its pattern takes it. -/
def list (parameters : List Parameter) : Stretch inParameterList :=
  ⟨listText parameters, fun _ hc => inParameterList_of_mem hc⟩

/-- A word character may stand in both kinds of bodies. -/
theorem inBody_of_isWord {c : Char} (hc : isWord c = true) :
    inEnumBody c = true ∧ inStructBody c = true := by
  simp only [inEnumBody, inStructBody, hc, Bool.true_or, and_self]

/-- A member holds no other characters than the body of an enumeration. -/
theorem inEnumBody_of_mem_text {member : Member} {c : Char} (hc : c ∈ member.text) :
    inEnumBody c = true := by
  rcases List.mem_append.mp hc with h | h
  · exact (inBody_of_isWord (member.name.inside_of_mem c h)).1
  · obtain ⟨name, _ | ⟨negative, value⟩⟩ := member
    · cases h
    · simp only [Option.elim, Member.valueText, List.mem_cons, List.mem_append] at h
      rcases h with rfl | rfl | rfl | h | h
      · decide
      · decide
      · decide
      · cases negative
        · cases h
        · rw [List.mem_singleton.mp h]
          decide
      · exact (inBody_of_isWord (value.inside_of_mem c h)).1

/-- The body of an enumeration as its pattern takes it. -/
def membersBody (members : List Member) : Token inEnumBody where
  chars := membersText members
  inside_of_mem := by
    intro c hc
    cases members with
    | nil =>
      rw [List.mem_singleton.mp hc]
      decide
    | cons first more =>
      rcases List.mem_cons.mp hc with rfl | hc
      · decide
      · rcases List.mem_append.mp hc with hc | hc
        · rcases of_mem_separated hc with rfl | rfl | ⟨item, hm, hc⟩
          · decide
          · decide
          · obtain ⟨member, -, rfl⟩ := List.mem_map.mp hm
            exact inEnumBody_of_mem_text hc
        · rw [List.mem_singleton.mp hc]
          decide
  nonempty := by cases members <;> exact List.cons_ne_nil _ _

/-- The characters of a label are word characters and brackets. -/
theorem inFieldName_of_mem_label {label : Label} {c : Char} (hc : c ∈ label.text) :
    inFieldName c = true := by
  cases label with
  | plain chars =>
    have hin := chars.inside_of_mem c hc
    simp only [inFieldName, Bool.or_eq_true] at hin ⊢
    tauto
  | array base size =>
    rcases List.mem_append.mp hc with h | h
    · rw [inFieldName, base.inside_of_mem c h, Bool.true_or, Bool.true_or]
    · rcases List.mem_cons.mp h with rfl | h
      · decide
      · rcases List.mem_append.mp h with h | h
        · rw [inFieldName, size.inside_of_mem c h, Bool.true_or, Bool.true_or]
        · rw [List.mem_singleton.mp h]
          decide

/-- A field holds no other characters than the body of a struct. -/
theorem inStructBody_of_mem_text {field : Field} {c : Char} (hc : c ∈ field.text) :
    inStructBody c = true := by
  simp only [Field.text, Field.nameText, StarredName.chars, List.mem_append, List.mem_cons,
    List.mem_replicate, List.not_mem_nil, or_false] at hc
  rcases hc with (h | ⟨-, rfl⟩) | rfl | (⟨-, rfl⟩ | h) | rfl
  · exact (inBody_of_isWord (field.type.base.inside_of_mem c h)).2
  · decide
  · decide
  · decide
  · have hin := inFieldName_of_mem_label h
    simp only [inFieldName, inStructBody, Bool.or_eq_true] at hin ⊢
    tauto
  · decide

/-- The body of a struct as its pattern takes it. -/
def fieldsBody (fields : List Field) : Token inStructBody where
  chars := fieldsText fields
  inside_of_mem := by
    intro c hc
    rcases List.mem_append.mp hc with hc | hc
    · obtain ⟨field, -, hc⟩ := List.mem_flatMap.mp hc
      rcases List.mem_cons.mp hc with rfl | hc
      · decide
      · exact inStructBody_of_mem_text hc
    · rw [List.mem_singleton.mp hc]
      decide
  nonempty := List.append_ne_nil_of_right_ne_nil _ (List.cons_ne_nil _ _)

/-! ## Declarations -/

/-- One space. -/
def space : Token isBlank :=
  ⟨⟨[' '], fun c hc => by rw [List.mem_singleton.mp hc]; decide⟩, List.cons_ne_nil _ _⟩

/-- A declaration of one of the eight kinds. -/
inductive Declaration where
  /-- An exported function. -/
  | function (announcer : Name) (type : ReturnType) (name : Name) (parameters : List Parameter)
  /-- A constant. -/
  | constant (name value : Name)
  /-- A function pointer type. -/
  | callback (type : ReturnType) (name : Name) (parameters : List Parameter)
  /-- An enumeration. -/
  | enum (name : Name) (members : List Member)
  /-- A type name for an enumeration. -/
  | enumAlias (tag name : Name)
  /-- A struct without a type name of its own. -/
  | struct (name : Name) (fields : List Field)
  /-- A type name for a struct. -/
  | structAlias (tag name : Name)
  /-- A struct with a type name, and with a tag or without one. -/
  | aliasedStruct (tag : Option Name) (fields : List Field) (name : Name)

namespace Declaration

/-- The text of a constant. -/
def constantText (name value : Name) : List Char :=
  "#define ".toList ++ (name.chars ++ ' ' :: value.chars)

/-- The text that the pattern of its kind finds of a declaration. -/
def text (marker : ExportMarker) : Declaration → List Char
  | function announcer type name parameters =>
    FunctionForm.text marker ⟨announcer, type, name, list parameters⟩
  | constant name value => constantText name value
  | callback type name parameters =>
    CallbackForm.text ⟨type, space.toStretch, name, list parameters⟩
  | enum name members => BracedForm.text "enum " ⟨name, space.toStretch, membersBody members⟩
  | enumAlias tag name => AliasForm.text "enum" ⟨tag, name⟩
  | struct name fields => BracedForm.text "struct " ⟨name, space.toStretch, fieldsBody fields⟩
  | structAlias tag name => AliasForm.text "struct" ⟨tag, name⟩
  | aliasedStruct tag fields name =>
    AliasedStructForm.text
      ⟨tag.map fun tag => (space, tag), space.toStretch, fieldsBody fields, space.toStretch, name⟩

/-- What stands between a declaration and the next line. The pattern of a
function pointer type leaves the semicolon behind. -/
def ending : Declaration → List Char
  | callback .. => [';', '\n']
  | _ => ['\n']

/-- A declaration on a line of its own. -/
def line (marker : ExportMarker) (declaration : Declaration) : List Char :=
  declaration.text marker ++ declaration.ending

end Declaration

/-- The text of a header of canonical declarations. -/
def headerText (marker : ExportMarker) (declarations : List Declaration) : List Char :=
  declarations.flatMap (Declaration.line marker)

/-- What canonical declarations declare, each kind in the order written. -/
def header (declarations : List Declaration) : Header where
  functions := declarations.filterMap fun
    | .function _ type name parameters => some
      ⟨String.ofList name.chars, String.ofList type.chars, parameters.map Parameter.leaves⟩
    | _ => none
  constants := declarations.filterMap fun
    | .constant name value => some ⟨String.ofList name.chars, String.ofList value.chars⟩
    | _ => none
  callbacks := declarations.filterMap fun
    | .callback type name parameters => some
      ⟨String.ofList type.chars, String.ofList name.chars, parameters.map Parameter.leaves⟩
    | _ => none
  enums := declarations.filterMap fun
    | .enum name members => some ⟨String.ofList name.chars, members.map Member.leaves⟩
    | _ => none
  enumAliases := declarations.filterMap fun
    | .enumAlias tag name => some ⟨String.ofList tag.chars, String.ofList name.chars⟩
    | _ => none
  structs := declarations.filterMap fun
    | .struct name fields => some ⟨String.ofList name.chars, fields.map Field.leaves⟩
    | _ => none
  structAliases := declarations.filterMap fun
    | .structAlias tag name => some ⟨String.ofList tag.chars, String.ofList name.chars⟩
    | _ => none
  aliasedStructs := declarations.filterMap fun
    | .aliasedStruct tag fields name => some
      ⟨String.ofList (tag.elim [] fun tag => tag.chars), String.ofList name.chars,
        fields.map Field.leaves⟩
    | _ => none

end HeaderExports.Canonical
