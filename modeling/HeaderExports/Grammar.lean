import HeaderExports.Marker
import HeaderExports.Pattern.Scan
import HeaderExports.Text.Blank

/-!
# The grammar of exported declarations

One pattern for each kind of declaration, and patterns for what stands in
parameter lists and bodies. Bodies hold no brace, so that none of them runs
over into the next declaration. The patterns are the slots of a record, and
extraction reads them from there.
-/

namespace HeaderExports

open Text (isBlank isWord)

/-- The parts of a declaration that its pattern marks. -/
inductive Part where
  /-- The name or tag that is declared. -/
  | name
  /-- A type. -/
  | type
  /-- A value. -/
  | value
  /-- A parameter list, or a body with its members. -/
  | body
  /-- The tag that a type name stands for. -/
  | tag
  deriving DecidableEq, Repr

namespace Grammar

open Pattern

/-- One word character. -/
def wordChar : Pattern Part := .one isWord

/-- A word. -/
def word : Pattern Part := plus wordChar

/-- Any number of blanks. -/
def blanks : Pattern Part := .star (.one isBlank)

/-- At least one blank. -/
def someBlanks : Pattern Part := plus (.one isBlank)

/-- Any number of stars. -/
def stars : Pattern Part := .star (.one (· == '*'))

/-- The qualifier that a type may begin with. -/
def qualifier : Pattern Part := optional (lit "const ")

/-- A word with stars behind it. -/
def starredWord : Pattern Part := chain [word, stars]

/-- A type with qualifier and stars, as functions return it. -/
def returnType : Pattern Part := .mark .type (chain [qualifier, starredWord])

/-- A character of a parameter list. -/
def inParameterList (c : Char) : Bool :=
  isWord c || c == '*' || c == ',' || c == '[' || c == ']' || isBlank c

/-- A parameter list in parentheses. -/
def parameterList : Pattern Part :=
  chain [lit "(", .mark .body (.star (.one inParameterList)), lit ")"]

/-- A character of the body of an enumeration. -/
def inEnumBody (c : Char) : Bool :=
  isWord c || c == '=' || c == ',' || c == '-' || isBlank c

/-- A character of the body of a struct. -/
def inStructBody (c : Char) : Bool :=
  isWord c || c == '=' || c == ',' || c == ';' || c == '*' || c == '[' || c == ']' || isBlank c

/-- A nonempty body in braces. -/
def body (inside : Char → Bool) : Pattern Part :=
  chain [lit "\x7b", .mark .body (plus (.one inside)), lit "\x7d"]

/-- A word that is the name declared. -/
def name : Pattern Part := .mark .name word

/-- A character of a parameter's type. -/
def inParameterType (c : Char) : Bool := isWord c || c == '*'

/-- A character of a parameter's name. -/
def inParameterName (c : Char) : Bool := isWord c || c == '*' || c == '[' || c == ']'

/-- A parameter, whose qualifier is not part of its type. -/
def parameterPattern : Pattern Part :=
  chain [qualifier, .mark .type (plus (.one inParameterType)), lit " ",
    .mark .name (plus (.one inParameterName))]

/-- A string literal on one line. A backslash hides the next character. -/
def stringLiteral : Pattern Part :=
  chain [lit "\"",
    .star (.alt (.one fun c => !(c == '"' || c == '\\' || c == '\n'))
      (chain [lit "\\", .one (! · == '\n')])),
    lit "\""]

/-- A constant with its value on the same line. -/
def constantPattern : Pattern Part :=
  chain [lit "#define ", name, plus (.one fun c => c == ' ' || c == '\t'),
    .mark .value (.alt stringLiteral word)]

/-- A function pointer type. -/
def callbackPattern : Pattern Part :=
  chain [lit "typedef ", returnType, blanks, lit "(*", name, lit ")", parameterList]

/-- An enumeration with its body. -/
def enumPattern : Pattern Part :=
  chain [lit "enum ", name, blanks, body inEnumBody, lit ";"]

/-- A member of an enumeration with its initializer. -/
def enumeratorPattern : Pattern Part :=
  chain [name, blanks,
    optional (chain [lit "=", blanks, .mark .value (chain [optional (lit "-"), blanks, word])])]

/-- A type name for a tag of the given keyword. -/
def aliasPattern (keyword : String) : Pattern Part :=
  chain [lit "typedef ", lit keyword, lit " ", .mark .tag word, lit " ", name, lit ";"]

/-- A type name for an enumeration. -/
def enumAliasPattern : Pattern Part := aliasPattern "enum"

/-- A struct with its body. -/
def structPattern : Pattern Part :=
  chain [lit "struct ", name, blanks, body inStructBody, lit ";"]

/-- A type name for a struct. -/
def structAliasPattern : Pattern Part := aliasPattern "struct"

/-- A struct with its body and a type name, with or without a tag. -/
def aliasedStructPattern : Pattern Part :=
  chain [lit "typedef struct", optional (chain [someBlanks, .mark .tag word]), blanks,
    body inStructBody, blanks, name, lit ";"]

/-- A character of a field's name behind its stars. -/
def inFieldName (c : Char) : Bool := isWord c || c == '[' || c == ']'

/-- A field, whose qualifier is not part of its type. -/
def fieldPattern : Pattern Part :=
  chain [qualifier, .mark .type starredWord, someBlanks,
    .mark .name (chain [stars, plus (.one inFieldName)]), lit ";"]

/-- The name of a field that is one array of fixed size. -/
def fixedSizePattern : Pattern Part := chain [stars, word, lit "[", word, lit "]"]

/-- A function announced by a word that ends in the export marker. -/
def functionPattern (marker : ExportMarker) : Pattern Part :=
  chain [word, lit marker.text, lit " ", returnType, lit " ", name, parameterList, lit ";"]

end Grammar

/-- The patterns that an extraction uses. -/
structure Grammar where
  /-- The marker of exported functions. -/
  marker : ExportMarker
  /-- Whether comments are left in the text. -/
  keepsComments : Bool
  /-- Exported functions. -/
  function : Pattern Part
  /-- Parameters in a list. -/
  parameter : Pattern Part
  /-- Constants. -/
  constant : Pattern Part
  /-- Function pointer types. -/
  callback : Pattern Part
  /-- Enumerations. -/
  enum : Pattern Part
  /-- Members of enumerations. -/
  enumerator : Pattern Part
  /-- Type names for enumerations. -/
  enumAlias : Pattern Part
  /-- Structs without a type name of their own. -/
  struct : Pattern Part
  /-- Type names for structs. -/
  structAlias : Pattern Part
  /-- Structs declared with a type name. -/
  aliasedStruct : Pattern Part
  /-- Fields of structs. -/
  field : Pattern Part
  /-- Names of fields that are one array of fixed size. -/
  fixedSize : Pattern Part

namespace Grammar

/-- The grammar for an export marker. -/
def withMarker (marker : ExportMarker) (keepsComments : Bool) : Grammar where
  marker := marker
  keepsComments := keepsComments
  function := functionPattern marker
  parameter := parameterPattern
  constant := constantPattern
  callback := callbackPattern
  enum := enumPattern
  enumerator := enumeratorPattern
  enumAlias := enumAliasPattern
  struct := structPattern
  structAlias := structAliasPattern
  aliasedStruct := aliasedStructPattern
  field := fieldPattern
  fixedSize := fixedSizePattern

/-- The grammar that is in force when none is chosen. -/
def standard : Grammar := withMarker .standard false

end Grammar

end HeaderExports
