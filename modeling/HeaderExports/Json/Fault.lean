import HeaderExports.Decimal.Shortest
import HeaderExports.Text.Quoted
import HeaderExports.Text.Span

/-!
# Faults of a document

Why a text is no document of the shape asked for, and where. A fault names
what is left of the text at that place, so that line and column follow from
the whole text. Columns count bytes.
-/

namespace HeaderExports.Json

/-- A value that stands where another kind of value is expected. -/
inductive Misfit where
  /-- The null value. -/
  | null
  /-- A truth value. -/
  | boolean (value : Bool)
  /-- A number without fraction and exponent that fits 64 bits. -/
  | integer (value : Int)
  /-- Any other number. -/
  | float (value : Float)
  /-- A text. -/
  | text (content : String)
  /-- A list. -/
  | list
  /-- An object. -/
  | object

/-- The value in words. -/
def Misfit.message : Misfit → String
  | null => "null"
  | boolean value => "boolean `" ++ toString value ++ "`"
  | integer value => "integer `" ++ toString value ++ "`"
  | float value => "floating point `" ++ Decimal.textOfFloat value ++ "`"
  | text content => "string " ++ Text.quoted content
  | list => "sequence"
  | object => "map"

/-- What is wrong with a text. -/
inductive Cause where
  /-- The text ends where a value should stand or go on. -/
  | endInValue
  /-- The text ends inside a list. -/
  | endInList
  /-- The text ends inside an object. -/
  | endInObject
  /-- The text ends inside a text in quotes. -/
  | endInText
  /-- No colon behind a key. -/
  | noColon
  /-- Neither comma nor bracket behind an item. -/
  | noCommaInList
  /-- Neither comma nor brace behind a member. -/
  | noCommaInObject
  /-- A literal name is misspelled. -/
  | misspelled
  /-- No value begins here. -/
  | noValue
  /-- A backslash with something that it cannot escape. -/
  | badEscape
  /-- A number is malformed. -/
  | badNumber
  /-- A number is too large. -/
  | numberTooLarge
  /-- A control character stands in a text. -/
  | controlCharacter
  /-- A key is no text. -/
  | noKey
  /-- A surrogate stands without its partner. -/
  | loneSurrogate
  /-- The escape of a surrogate is not followed by another escape. -/
  | brokenPair
  /-- A comma stands in front of a closing bracket. -/
  | trailingComma
  /-- Something follows where nothing should. -/
  | trailingCharacters
  /-- A member is missing. -/
  | missing (key : String)
  /-- A member is given twice. -/
  | duplicate (key : String)
  /-- A record is written as a list that is too short. -/
  | tooShort (length : Nat) (title : String) (members : Nat)
  /-- A value has the wrong kind. -/
  | misfit (found : Misfit) (expected : String)

/-- The three kinds of faults. -/
inductive Category where
  /-- The text is no document. -/
  | syntactic
  /-- The document has another shape. -/
  | semantic
  /-- The text ends too early. -/
  | ending
  deriving DecidableEq, Repr

namespace Cause

/-- The kind of a fault. -/
def category : Cause → Category
  | endInValue | endInList | endInObject | endInText => .ending
  | missing _ | duplicate _ | tooShort _ _ _ | misfit _ _ => .semantic
  | _ => .syntactic

/-- The fault in words. -/
def message : Cause → String
  | endInValue => "EOF while parsing a value"
  | endInList => "EOF while parsing a list"
  | endInObject => "EOF while parsing an object"
  | endInText => "EOF while parsing a string"
  | noColon => "expected `:`"
  | noCommaInList => "expected `,` or `]`"
  | noCommaInObject => "expected `,` or `\x7d`"
  | misspelled => "expected ident"
  | noValue => "expected value"
  | badEscape => "invalid escape"
  | badNumber => "invalid number"
  | numberTooLarge => "number out of range"
  | controlCharacter => "control character (\\u0000-\\u001F) found while parsing a string"
  | noKey => "key must be a string"
  | loneSurrogate => "lone leading surrogate in hex escape"
  | brokenPair => "unexpected end of hex escape"
  | trailingComma => "trailing comma"
  | trailingCharacters => "trailing characters"
  | missing key => "missing field `" ++ key ++ "`"
  | duplicate key => "duplicate field `" ++ key ++ "`"
  | tooShort length title members =>
    "invalid length " ++ toString length ++ ", expected struct " ++ title ++ " with " ++
      toString members ++ " elements"
  | misfit found expected => "invalid type: " ++ found.message ++ ", expected " ++ expected

end Cause

/-- A fault and its place: what is left of the text, and how many bytes of
that still belong to the place. -/
structure Fault where
  /-- What is wrong. -/
  cause : Cause
  /-- The text from the place on. -/
  rest : List Char
  /-- Bytes of the rest up to the end of the offending ones. -/
  past : Nat

/-- A fault in front of the rest of a text. -/
def Cause.before (cause : Cause) (rest : List Char) : Fault := ⟨cause, rest, 0⟩

/-- A fault whose offending byte is the first one of the rest of a text. -/
def Cause.on (cause : Cause) (rest : List Char) : Fault := ⟨cause, rest, 1⟩

/-- The line and column behind some bytes of a text, counted on from a line and
column. A character of which only some bytes are asked for counts those. -/
def lineColumn (line column : Nat) : Nat → List Char → Nat × Nat
  | _, [] => (line, column)
  | bytes, c :: rest =>
    if bytes < c.utf8Size then (line, column + bytes)
    else if c = '\n' then lineColumn (line + 1) 0 (bytes - c.utf8Size) rest
    else lineColumn line (column + c.utf8Size) (bytes - c.utf8Size) rest

/-- A fault with its line and column in the whole text. -/
structure ReadError where
  /-- What is wrong. -/
  cause : Cause
  /-- The line, counted from one. -/
  line : Nat
  /-- The bytes of that line up to the place. -/
  column : Nat

/-- The place of a fault in the whole text. -/
def Fault.locate (fault : Fault) (text : List Char) : ReadError :=
  let bytes := Text.byteLength text - Text.byteLength fault.rest + fault.past
  let place := lineColumn 1 0 bytes text
  ⟨fault.cause, place.1, place.2⟩

/-- The error in words. -/
def ReadError.message (error : ReadError) : String :=
  error.cause.message ++ " at line " ++ toString error.line ++ " column " ++ toString error.column

end HeaderExports.Json
