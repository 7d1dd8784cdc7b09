import HeaderExports.Declaration
import HeaderExports.Text.Blank

/-!
# References to types

A header names types in what its functions return and take, in the members
of its structs and in its type names. A reference is resolved if its bare
name is built into C or declared by the header itself.
-/

namespace HeaderExports

/-- A place of a header at which a type is named. -/
structure TypeUse where
  /-- The place, in words. -/
  location : String
  /-- The type as it is written there. -/
  written : String
  deriving DecidableEq, Repr

/-- A type that is named and declared nowhere. -/
structure UnresolvedReference where
  /-- The place, in words. -/
  location : String
  /-- The bare name of the type. -/
  typeName : String
  deriving DecidableEq, Repr

namespace TypeUse

/-- The text behind a leading qualifier. -/
def dropQualifier : List Char → List Char
  | 'c' :: 'o' :: 'n' :: 's' :: 't' :: ' ' :: rest => rest
  | text => text

/-- The text without the stars at its end. -/
def dropStars (text : List Char) : List Char := (text.reverse.dropWhile (· = '*')).reverse

/-- A type without leading qualifier, without the stars at its end and
without blanks at its edges. -/
def bareName (written : String) : String :=
  String.ofList (Text.trim (dropStars (dropQualifier (Text.trim written.toList))))

end TypeUse

/-- Type names that need no declaration. -/
def builtinTypes : List String :=
  ["void", "char", "short", "int", "long", "float", "double", "signed", "unsigned", "bool",
   "_Bool", "size_t", "ssize_t", "ptrdiff_t", "intptr_t", "uintptr_t", "wchar_t", "int8_t",
   "int16_t", "int32_t", "int64_t", "uint8_t", "uint16_t", "uint32_t", "uint64_t"]

/-- The uses of types in a parameter list. -/
def Parameter.typeUses (owner : String) (parameters : List Parameter) : List TypeUse :=
  parameters.map fun parameter => ⟨owner ++ "(" ++ parameter.name ++ ")", parameter.type⟩

/-- The uses of types in the members of a struct. -/
def Field.typeUses (owner : String) (fields : List Field) : List TypeUse :=
  fields.map fun field => ⟨owner ++ "." ++ field.name, field.type⟩

namespace Header

/-- The names of all types that a header declares. -/
def declaredTypes (header : Header) : List String :=
  header.structs.map (·.name) ++ header.enums.map (·.name) ++
    header.enumAliases.map (·.typeName) ++ header.structAliases.map (·.typeName) ++
    header.callbacks.map (·.name) ++ header.aliasedStructs.map (·.typeName) ++
    (header.aliasedStructs.map (·.tag)).filter (! ·.isEmpty)

/-- All uses of types: of functions and function pointer types first what they
return and then what they take, then the members of structs, then what type
names stand for. -/
def typeUses (header : Header) : List TypeUse :=
  (header.functions.flatMap fun function =>
    let owner := "function " ++ function.name
    ⟨owner, function.returnType⟩ :: Parameter.typeUses owner function.parameters) ++
  (header.callbacks.flatMap fun callback =>
    let owner := "function pointer " ++ callback.name
    ⟨owner, callback.returnType⟩ :: Parameter.typeUses owner callback.parameters) ++
  (header.structs.flatMap fun declared =>
    Field.typeUses ("struct " ++ declared.name) declared.fields) ++
  (header.aliasedStructs.flatMap fun declared =>
    Field.typeUses ("struct " ++ declared.typeName) declared.fields) ++
  (header.enumAliases.map fun named => ⟨"typedef " ++ named.typeName, named.tag⟩) ++
  (header.structAliases.map fun named => ⟨"typedef " ++ named.typeName, named.tag⟩)

/-- Whether a bare name needs no further declaration. -/
def resolves (header : Header) (name : String) : Bool :=
  name.isEmpty || builtinTypes.contains name || header.declaredTypes.contains name

/-- The references that resolve nowhere, in the order of their places. -/
def unresolvedReferences (header : Header) : List UnresolvedReference :=
  (header.typeUses.map fun use => ⟨use.location, TypeUse.bareName use.written⟩).filter
    fun reference : UnresolvedReference => ! header.resolves reference.typeName

/-- What is reported is the bare name of a use that does not resolve. -/
theorem mem_unresolvedReferences {header : Header} {reference : UnresolvedReference} :
    reference ∈ header.unresolvedReferences ↔
      (∃ use ∈ header.typeUses,
        UnresolvedReference.mk use.location (TypeUse.bareName use.written) = reference) ∧
      header.resolves reference.typeName = false := by
  simp only [unresolvedReferences, List.mem_filter, List.mem_map, Bool.not_eq_true']

end Header

end HeaderExports
