/-!
# Declarations of a C header

The exported surface of a header: functions, constants, function pointer
types, enumerations and structs, with the type names that stand for them.
Every leaf is the text that was written. The lists of a header keep the order
of the text and are independent of each other; nothing here checks that a
type is declared where it is named.
-/

namespace HeaderExports

/-- A parameter of a function or function pointer type. -/
structure Parameter where
  /-- The type, stars included, without a leading qualifier. -/
  type : String
  /-- The name, with any stars or brackets written at it. -/
  name : String
  deriving DecidableEq, Repr

/-- An exported function. -/
structure FunctionDecl where
  /-- The name. -/
  name : String
  /-- The type returned, with its qualifier and stars. -/
  returnType : String
  /-- The parameters in order. -/
  parameters : List Parameter
  deriving DecidableEq, Repr

/-- A named constant. -/
structure ConstantDecl where
  /-- The name. -/
  name : String
  /-- The value, a string literal with its quotes. -/
  value : String
  deriving DecidableEq, Repr

/-- A named function pointer type. -/
structure CallbackDecl where
  /-- The type returned, with its qualifier and stars. -/
  returnType : String
  /-- The name. -/
  name : String
  /-- The parameters in order. -/
  parameters : List Parameter
  deriving DecidableEq, Repr

/-- A member of an enumeration. -/
structure Enumerator where
  /-- The name. -/
  name : String
  /-- The initializer, empty if none is written. -/
  value : String
  deriving DecidableEq, Repr

/-- An enumeration with its members. -/
structure EnumDecl where
  /-- The tag. -/
  name : String
  /-- The members in order. -/
  values : List Enumerator
  deriving DecidableEq, Repr

/-- A type name for an enumeration declared elsewhere. -/
structure EnumAlias where
  /-- The tag that is named. -/
  tag : String
  /-- The new type name. -/
  typeName : String
  deriving DecidableEq, Repr

/-- A member of a struct. -/
structure Field where
  /-- The type, stars included. -/
  type : String
  /-- The name, a fixed array size included. -/
  name : String
  deriving DecidableEq, Repr

/-- A struct with its members. -/
structure StructDecl where
  /-- The tag. -/
  name : String
  /-- The members in order. -/
  fields : List Field
  deriving DecidableEq, Repr

/-- A type name for a struct declared elsewhere. -/
structure StructAlias where
  /-- The tag that is named. -/
  tag : String
  /-- The new type name. -/
  typeName : String
  deriving DecidableEq, Repr

/-- A struct declared together with a type name for it. -/
structure AliasedStruct where
  /-- The tag, empty if the struct has none. -/
  tag : String
  /-- The type name. -/
  typeName : String
  /-- The members in order. -/
  fields : List Field
  deriving DecidableEq, Repr

/-- Everything a header declares, one list for each kind of declaration. -/
structure Header where
  /-- Exported functions. -/
  functions : List FunctionDecl
  /-- Named constants. -/
  constants : List ConstantDecl
  /-- Function pointer types. -/
  callbacks : List CallbackDecl
  /-- Enumerations. -/
  enums : List EnumDecl
  /-- Type names for enumerations. -/
  enumAliases : List EnumAlias
  /-- Structs without a type name of their own. -/
  structs : List StructDecl
  /-- Type names for structs. -/
  structAliases : List StructAlias
  /-- Structs declared with a type name. -/
  aliasedStructs : List AliasedStruct
  deriving DecidableEq, Repr

namespace Header

/-- The header that declares nothing. -/
def empty : Header := ⟨[], [], [], [], [], [], [], []⟩

/-- The number of declarations of all kinds. -/
def size (header : Header) : Nat :=
  header.functions.length + header.constants.length + header.callbacks.length +
    header.enums.length + header.enumAliases.length + header.structs.length +
    header.structAliases.length + header.aliasedStructs.length

/-- Whether nothing is declared. -/
def isEmpty (header : Header) : Bool := header.size == 0

/-- Only the empty header declares nothing. -/
theorem isEmpty_iff (header : Header) : header.isEmpty = true ↔ header = empty := by
  cases header
  simp [isEmpty, size, empty, and_assoc]

/-- The functions asked for by name, in the order of the names. Unknown names
are passed over, and of several functions of one name the first is taken. -/
def selectFunctions (header : Header) (names : List String) : List FunctionDecl :=
  names.filterMap fun name => header.functions.find? (·.name = name)

/-- The constants asked for by name, chosen as functions are. -/
def selectConstants (header : Header) (names : List String) : List ConstantDecl :=
  names.filterMap fun name => header.constants.find? (·.name = name)

/-- Names asked for in two batches are answered batch by batch. -/
theorem selectFunctions_append (header : Header) (first second : List String) :
    header.selectFunctions (first ++ second) =
      header.selectFunctions first ++ header.selectFunctions second := by
  simp [selectFunctions]

end Header

namespace ConstantDecl

/-- Whether a text stands between two double quotes. -/
def isQuoted (value : String) : Bool :=
  let chars := value.toList
  2 ≤ chars.length && chars.head? == some '"' && chars.getLast? == some '"'

/-- Whether the value is a string literal. -/
def isStringLiteral (constant : ConstantDecl) : Bool := isQuoted constant.value

end ConstantDecl

end HeaderExports
