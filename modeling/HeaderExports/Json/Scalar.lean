import HeaderExports.Json.Document
import HeaderExports.Json.Fault

/-!
# Reading texts and numbers

A reader takes a value off the front of a text and leaves the rest. Texts in
quotes are read to their content. Numbers have no place in a document of
texts, lists and records; they are read to say what stands in the wrong
place, and skipped inside members that nobody asks for.
-/

namespace HeaderExports.Json

/-- Take a value off the front of a text. -/
abbrev Reader (α : Type) := List Char → Except Fault (α × List Char)

/-- The characters that may stand between any two tokens. -/
def isSpace (c : Char) : Bool := c == ' ' || c == '\n' || c == '\t' || c == '\r'

/-- Drop the space in front of a token. -/
def skipSpace (text : List Char) : List Char := text.dropWhile isSpace

/-- Whether a character is a decimal digit. -/
def isDigit (c : Char) : Bool := '0' ≤ c && c ≤ '9'

/-- The value of a hexadecimal digit in either case. -/
def hexValue? (c : Char) : Option Nat :=
  if '0' ≤ c ∧ c ≤ '9' then some (c.toNat - '0'.toNat)
  else if 'a' ≤ c ∧ c ≤ 'f' then some (c.toNat - 'a'.toNat + 10)
  else if 'A' ≤ c ∧ c ≤ 'F' then some (c.toNat - 'A'.toNat + 10)
  else none

/-- The value of four hexadecimal digits. -/
def hexQuad? (a b c d : Char) : Option Nat :=
  match hexValue? a, hexValue? b, hexValue? c, hexValue? d with
  | some a, some b, some c, some d => some (((a * 16 + b) * 16 + c) * 16 + d)
  | _, _, _, _ => none

/-- The code unit of an escape. Four bytes are taken before they are judged. -/
def readCodeUnit : Reader Nat := fun text =>
  if Text.byteLength (text.take 4) < 4 then .error (Cause.endInText.before [])
  else
    match text with
    | a :: b :: c :: d :: rest =>
      match hexQuad? a b c d with
      | some unit => .ok (unit, rest)
      | none => .error ⟨.badEscape, text, 4⟩
    | _ => .error ⟨.badEscape, text, 4⟩

/-- Whether a code unit is the first one of a pair. -/
def isLeading (unit : Nat) : Bool := 0xD800 ≤ unit && unit < 0xDC00

/-- Whether a code unit is the second one of a pair. -/
def isTrailing (unit : Nat) : Bool := 0xDC00 ≤ unit && unit < 0xE000

/-- The character that a pair of code units stands for. -/
def pairedChar (leading trailing : Nat) : Char :=
  Char.ofNat ((leading - 0xD800) * 0x400 + (trailing - 0xDC00) + 0x10000)

/-- The second code unit of a pair, behind the first one. -/
def readTrailing (leading : Nat) : Reader Char
  | [] => .error (Cause.endInText.before [])
  | '\\' :: [] => .error (Cause.endInText.before [])
  | '\\' :: 'u' :: rest =>
    match readCodeUnit rest with
    | .error fault => .error fault
    | .ok (trailing, rest) =>
      if isTrailing trailing then .ok (pairedChar leading trailing, rest)
      else .error (Cause.loneSurrogate.before rest)
  | '\\' :: rest => .error (Cause.brokenPair.on rest)
  | rest => .error (Cause.brokenPair.on rest)

/-- The escape of a second code unit begins with a backslash. -/
theorem readTrailing_cons (leading : Nat) {c : Char} (hc : c ≠ '\\') (rest : List Char) :
    readTrailing leading (c :: rest) = .error (Cause.brokenPair.on (c :: rest)) := by
  rw [readTrailing]
  · exact List.cons_ne_nil c rest
  · exact fun h => hc (List.cons.inj h).1
  · exact fun _ h => hc (List.cons.inj h).1
  · exact fun _ h => hc (List.cons.inj h).1

/-- Behind the backslash stands the letter of a code unit. -/
theorem readTrailing_backslash (leading : Nat) {c : Char} (hc : c ≠ 'u') (rest : List Char) :
    readTrailing leading ('\\' :: c :: rest) = .error (Cause.brokenPair.on (c :: rest)) := by
  rw [readTrailing]
  · exact fun h => by cases h
  · exact fun _ h => hc (List.cons.inj h).1

/-- The character of a code unit escape. Code units of pairs must come as pairs
if `strict` is set, and otherwise count as a character each. -/
def readUnicode (strict : Bool) : Reader Char := fun text =>
  match readCodeUnit text with
  | .error fault => .error fault
  | .ok (unit, rest) =>
    if !strict then .ok (Char.ofNat unit, rest)
    else if isTrailing unit then .error (Cause.loneSurrogate.before rest)
    else if isLeading unit then readTrailing unit rest
    else .ok (Char.ofNat unit, rest)

/-- The character that a backslash and a letter stand for. -/
def shortEscape? (c : Char) : Option Char :=
  if c = '"' ∨ c = '\\' ∨ c = '/' then some c
  else if c = 'b' then some '\x08'
  else if c = 'f' then some '\x0c'
  else if c = 'n' then some '\n'
  else if c = 'r' then some '\r'
  else if c = 't' then some '\t'
  else none

/-- The character of an escape, behind the backslash. -/
def readEscape (strict : Bool) : Reader Char
  | [] => .error (Cause.endInText.before [])
  | 'u' :: rest => readUnicode strict rest
  | c :: rest =>
    match shortEscape? c with
    | some escaped => .ok (escaped, rest)
    | none => .error (Cause.badEscape.on (c :: rest))

/-- A letter that stands for a character is read to it. -/
theorem readEscape_short (strict : Bool) {letter c : Char} (hc : shortEscape? letter = some c)
    (hu : letter ≠ 'u') (rest : List Char) :
    readEscape strict (letter :: rest) = .ok (c, rest) := by
  rw [readEscape, hc]
  exact hu

/-- Behind its letter a code unit is read. -/
theorem readEscape_unit (strict : Bool) (rest : List Char) :
    readEscape strict ('u' :: rest) = readUnicode strict rest := rfl

/-- The fault of a control character that begins the rest of a text. It belongs
to the place if `strict` is set. -/
def controlFault (strict : Bool) (rest : List Char) : Fault :=
  if strict then Cause.controlCharacter.on rest else Cause.controlCharacter.before rest

/-- The rest of a text in quotes, its characters so far in reverse order. Every
step takes a character, so as many steps as characters are enough. -/
def readChars (strict : Bool) : Nat → List Char → Reader (List Char)
  | _, _, [] => .error (Cause.endInText.before [])
  | 0, _, _ => .error (Cause.endInText.before [])
  | _ + 1, done, '"' :: rest => .ok (done.reverse, rest)
  | limit + 1, done, '\\' :: rest =>
    match readEscape strict rest with
    | .error fault => .error fault
    | .ok (c, rest) => readChars strict limit (c :: done) rest
  | limit + 1, done, c :: rest =>
    if c.toNat < 0x20 then .error (controlFault strict (c :: rest))
    else readChars strict limit (c :: done) rest

/-- The closing quote ends a text. -/
theorem readChars_quote (strict : Bool) (limit : Nat) (done rest : List Char) :
    readChars strict (limit + 1) done ('"' :: rest) = .ok (done.reverse, rest) := rfl

/-- A character that stands for itself is read. -/
theorem readChars_plain (strict : Bool) (limit : Nat) (done : List Char) {c : Char}
    (valid : 0x20 ≤ c.toNat ∧ c ≠ '"' ∧ c ≠ '\\') (text : List Char) :
    readChars strict (limit + 1) done (c :: text) = readChars strict limit (c :: done) text := by
  obtain ⟨hc, hq, hb⟩ := valid
  rw [readChars, if_neg (Nat.not_lt.mpr hc)]
  · exact hq
  · exact hb

/-- Behind a backslash an escape is read. -/
theorem readChars_escape (strict : Bool) (limit : Nat) (done text : List Char) :
    readChars strict (limit + 1) done ('\\' :: text) =
      match readEscape strict text with
      | .error fault => .error fault
      | .ok (c, rest) => readChars strict limit (c :: done) rest := rfl

/-- The content of a text, behind its opening quote. -/
def readQuoted (strict : Bool) : Reader (List Char) := fun text =>
  readChars strict text.length [] text

/-- The rest of a literal name. -/
def readName : List Char → List Char → Except Fault (List Char)
  | [], rest => .ok rest
  | _ :: _, [] => .error (Cause.endInValue.before [])
  | expected :: more, c :: rest =>
    if c = expected then readName more rest else .error (Cause.misspelled.on (c :: rest))

/-- Numbers that fit an unsigned word of 64 bits lie below this one. -/
def wordLimit : Nat := 0x10000000000000000

/-- Append digits to a number as long as it fits a word: the number, how many
digits it took, and the rest. -/
def appendDigits (value count : Nat) : List Char → Nat × Nat × List Char
  | [] => (value, count, [])
  | c :: rest =>
    let longer := value * 10 + (c.toNat - '0'.toNat)
    if isDigit c && longer < wordLimit then appendDigits longer (count + 1) rest
    else (value, count, c :: rest)

/-- Drop digits and count them. -/
def dropDigits (count : Nat) : List Char → Nat × List Char
  | [] => (count, [])
  | c :: rest => if isDigit c then dropDigits (count + 1) rest else (count, c :: rest)

/-- `value · 10^exponent` as a binary fraction, unless it is too large. Powers
of ten beyond `10^308` are applied in steps, and after three of them nothing
is left. -/
def scale? (value : Float) (exponent : Int) : Option Float :=
  if value == 0 then some value
  else if 308 < exponent then none
  else if 0 ≤ exponent then
    let scaled := value * Float.ofScientific 1 false exponent.toNat
    if scaled.isInf then none else some scaled
  else
    let huge := Float.ofScientific 1 false 308
    let steps := min 3 ((-exponent - 1) / 308).toNat
    let shrunk := steps.repeat (· / huge) value
    if shrunk == 0 then some shrunk
    else some (shrunk / Float.ofScientific 1 false (-exponent - 308 * steps).toNat)

/-- A number with fraction or exponent, given its digits and power of ten. -/
def floatOf (negative : Bool) (digits : Nat) (exponent : Int) (rest : List Char) :
    Except Fault (Misfit × List Char) :=
  match scale? digits.toUInt64.toFloat exponent with
  | some value => .ok (.float (if negative then -value else value), rest)
  | none => .error (Cause.numberTooLarge.before rest)

/-- The largest exponent that is looked at. -/
def exponentLimit : Nat := 0x80000000

/-- The digits of an exponent. One that is too large makes a number too large,
or zero. -/
def readExponentDigits (negative down : Bool) (digits : Nat) (start : Int) (exponent : Nat) :
    List Char → Except Fault (Misfit × List Char)
  | [] => floatOf negative digits (if down then start - exponent else start + exponent) []
  | c :: rest =>
    if isDigit c then
      let longer := exponent * 10 + (c.toNat - '0'.toNat)
      if longer < exponentLimit then readExponentDigits negative down digits start longer rest
      else if digits = 0 ∨ down then
        .ok (.float (if negative then -0.0 else 0.0), (dropDigits 0 rest).2)
      else .error (Cause.numberTooLarge.before rest)
    else floatOf negative digits (if down then start - exponent else start + exponent) (c :: rest)

/-- An exponent, behind its letter. -/
def readExponent (negative : Bool) (digits : Nat) (start : Int) (text : List Char) :
    Except Fault (Misfit × List Char) :=
  let (down, unsigned) : Bool × List Char :=
    match text with
    | '+' :: rest => (false, rest)
    | '-' :: rest => (true, rest)
    | _ => (false, text)
  match unsigned with
  | [] => .error (Cause.endInValue.before [])
  | c :: rest =>
    if isDigit c then
      readExponentDigits negative down digits start (c.toNat - '0'.toNat) rest
    else .error (Cause.badNumber.on (c :: rest))

/-- What may follow the fraction of a number. -/
def readAfterFraction (negative : Bool) (digits : Nat) (exponent : Int) :
    List Char → Except Fault (Misfit × List Char)
  | 'e' :: rest => readExponent negative digits exponent rest
  | 'E' :: rest => readExponent negative digits exponent rest
  | rest => floatOf negative digits exponent rest

/-- A fraction, behind its point. Digits that no longer fit are dropped. -/
def readFraction (negative : Bool) (digits : Nat) (exponent : Int) (text : List Char) :
    Except Fault (Misfit × List Char) :=
  match appendDigits digits 0 text with
  | (longer, count, rest) =>
    match dropDigits 0 rest with
    | (dropped, rest) =>
      if count = 0 ∧ dropped = 0 then
        match rest with
        | [] => .error (Cause.endInValue.before [])
        | _ => .error (Cause.badNumber.on rest)
      else readAfterFraction negative longer (exponent - count) rest

/-- A whole number as it is stored: a signed or unsigned word of 64 bits if it
fits and is no negative zero. -/
def wholeNumber (negative : Bool) (digits : Nat) : Misfit :=
  if !negative then .integer digits
  else if digits = 0 ∨ 0x8000000000000000 < digits then .float (-digits.toUInt64.toFloat)
  else .integer (-digits)

/-- What may follow the whole part of a number, of which `dropped` digits did
not fit. -/
def readAfterWhole (negative : Bool) (digits dropped : Nat) :
    List Char → Except Fault (Misfit × List Char)
  | '.' :: rest => readFraction negative digits dropped rest
  | 'e' :: rest => readExponent negative digits dropped rest
  | 'E' :: rest => readExponent negative digits dropped rest
  | rest =>
    if dropped = 0 then .ok (wholeNumber negative digits, rest)
    else floatOf negative digits dropped rest

/-- A number, behind its sign. -/
def readNumber (negative : Bool) : List Char → Except Fault (Misfit × List Char)
  | [] => .error (Cause.endInValue.before [])
  | '0' :: rest =>
    match rest with
    | c :: _ =>
      if isDigit c then .error (Cause.badNumber.on rest)
      else readAfterWhole negative 0 0 rest
    | [] => readAfterWhole negative 0 0 rest
  | c :: rest =>
    if isDigit c then
      match appendDigits (c.toNat - '0'.toNat) 0 rest with
      | (digits, _, rest) =>
        match dropDigits 0 rest with
        | (dropped, rest) => readAfterWhole negative digits dropped rest
    else .error (Cause.badNumber.on (c :: rest))

/-- Say that a value is not of the kind expected. A scalar is read first, so
that its own faults come before this one. -/
def misfit {α : Type} (expected : String) (text : List Char) : Except Fault (α × List Char) :=
  let wrong (found : Misfit) (rest : List Char) : Except Fault (α × List Char) :=
    .error ((Cause.misfit found expected).before rest)
  let name (letters : List Char) (found : Misfit) (rest : List Char) :=
    match readName letters rest with
    | .error fault => .error fault
    | .ok rest => wrong found rest
  let number (negative : Bool) (rest : List Char) :=
    match readNumber negative rest with
    | .error fault => .error fault
    | .ok (found, rest) => wrong found rest
  match text with
  | 'n' :: rest => name ['u', 'l', 'l'] .null rest
  | 't' :: rest => name ['r', 'u', 'e'] (.boolean true) rest
  | 'f' :: rest => name ['a', 'l', 's', 'e'] (.boolean false) rest
  | '-' :: rest => number true rest
  | '"' :: rest =>
    match readQuoted true rest with
    | .error fault => .error fault
    | .ok (content, rest) => wrong (.text (String.ofList content)) rest
  | '[' :: _ => wrong .list text
  | '\x7b' :: _ => wrong .object text
  | [] => .error (Cause.noValue.on [])
  | c :: _ => if isDigit c then number false text else .error (Cause.noValue.on text)

end HeaderExports.Json
