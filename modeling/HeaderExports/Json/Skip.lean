import HeaderExports.Json.Scalar

/-!
# Skipping values

The value of a member that nobody asks for may be any JSON value. It is
skipped with a stack of the brackets that are open, so that values may be
nested as deeply as the text allows.
-/

namespace HeaderExports.Json

/-- A bracket that is open. -/
inductive Bracket where
  /-- A list. -/
  | list
  /-- An object. -/
  | object
  deriving DecidableEq, Repr

namespace Bracket

/-- The character that closes a bracket. -/
def closing : Bracket → Char
  | list => ']'
  | object => '\x7d'

/-- The fault of a text that ends inside a bracket. -/
def ending : Bracket → Cause
  | list => .endInList
  | object => .endInObject

/-- The fault of a missing comma inside a bracket. -/
def noComma : Bracket → Cause
  | list => .noCommaInList
  | object => .noCommaInObject

end Bracket

/-- Skip an exponent, behind its letter. -/
def skipExponent (text : List Char) : Except Fault (List Char) :=
  let unsigned :=
    match text with
    | '+' :: rest => rest
    | '-' :: rest => rest
    | _ => text
  match unsigned with
  | [] => .error (Cause.badNumber.before [])
  | c :: rest =>
    if isDigit c then .ok (dropDigits 0 rest).2 else .error (Cause.badNumber.on (c :: rest))

/-- Skip what follows the digits of a number. -/
def skipAfterDigits : List Char → Except Fault (List Char)
  | 'e' :: rest => skipExponent rest
  | 'E' :: rest => skipExponent rest
  | rest => .ok rest

/-- Where no exponent begins, the digits end the number. -/
theorem skipAfterDigits_of_head {text : List Char} (hh : ∀ c ∈ text.head?, c ≠ 'e' ∧ c ≠ 'E') :
    skipAfterDigits text = .ok text := by
  cases text with
  | nil => rfl
  | cons c rest =>
    obtain ⟨hlower, hupper⟩ := hh c rfl
    rw [skipAfterDigits]
    · exact fun _ h => hlower (List.cons.inj h).1
    · exact fun _ h => hupper (List.cons.inj h).1

/-- Skip what follows the whole part of a number. -/
def skipAfterWhole : List Char → Except Fault (List Char)
  | '.' :: rest =>
    match dropDigits 0 rest with
    | (0, rest) => .error (Cause.badNumber.on rest)
    | (_ + 1, rest) => skipAfterDigits rest
  | rest => skipAfterDigits rest

/-- Where no fraction begins, an exponent may follow the whole part. -/
theorem skipAfterWhole_of_head {text : List Char} (hh : ∀ c ∈ text.head?, c ≠ '.') :
    skipAfterWhole text = skipAfterDigits text := by
  cases text with
  | nil => rfl
  | cons c rest =>
    rw [skipAfterWhole]
    exact fun _ h => hh c rfl (List.cons.inj h).1

/-- Skip a number, behind its sign. -/
def skipNumber : List Char → Except Fault (List Char)
  | [] => .error (Cause.badNumber.before [])
  | c :: rest =>
    if c = '0' then
      if rest.head?.any isDigit then .error (Cause.badNumber.on rest) else skipAfterWhole rest
    else if isDigit c then skipAfterWhole (dropDigits 0 rest).2
    else .error (Cause.badNumber.on (c :: rest))

/-- Skip a key and the colon behind it. -/
def skipKey (text : List Char) : Except Fault (List Char) :=
  match skipSpace text with
  | [] => .error (Cause.endInObject.before [])
  | '"' :: rest =>
    match readQuoted false rest with
    | .error fault => .error fault
    | .ok (_, rest) =>
      match skipSpace rest with
      | [] => .error (Cause.endInObject.before [])
      | ':' :: rest => .ok rest
      | rest => .error (Cause.noColon.on rest)
  | rest => .error (Cause.noKey.on rest)

/-- Skip a scalar value. -/
def skipScalar (text : List Char) : Except Fault (List Char) :=
  match text with
  | [] => .error (Cause.endInValue.before [])
  | 'n' :: rest => readName ['u', 'l', 'l'] rest
  | 't' :: rest => readName ['r', 'u', 'e'] rest
  | 'f' :: rest => readName ['a', 'l', 's', 'e'] rest
  | '-' :: rest => skipNumber rest
  | '"' :: rest => (readQuoted false rest).map (·.2)
  | c :: _ => if isDigit c then skipNumber text else .error (Cause.noValue.on text)

/-- A value that begins with a digit is a number. -/
theorem skipScalar_digit {c : Char} (hc : isDigit c = true) (rest : List Char) :
    skipScalar (c :: rest) = skipNumber (c :: rest) := by
  have other {d : Char} (hd : isDigit d = false) : c ≠ d := by
    rintro rfl
    rw [hd] at hc
    exact Bool.false_ne_true hc
  rw [skipScalar]
  · rw [if_pos hc]
  · exact other rfl
  · exact other rfl
  · exact other rfl
  · exact other rfl
  · exact other rfl

/-- What is left to skip. -/
inductive Pending where
  /-- A value, inside the brackets that are open. -/
  | value
  /-- What follows an opening bracket, or a value if `afterItem` is set. -/
  | more (afterItem : Bool)
  /-- The next item of the innermost bracket. -/
  | item

/-- Skip to the end of a value inside open brackets, the innermost first. No
step but those to an item keeps all characters, so that three steps for every
character are enough. -/
def skipFrom : Nat → Pending → List Bracket → List Char → Except Fault (List Char)
  | 0, _, _, _ => .error (Cause.endInValue.before [])
  | limit + 1, .value, opened, text =>
    match skipSpace text with
    | '[' :: rest => skipFrom limit (.more false) (.list :: opened) rest
    | '\x7b' :: rest => skipFrom limit (.more false) (.object :: opened) rest
    | rest =>
      match skipScalar rest with
      | .error fault => .error fault
      | .ok rest => skipFrom limit (.more true) opened rest
  | _ + 1, .more _, [], text => .ok text
  | limit + 1, .more afterItem, bracket :: outer, text =>
    match skipSpace text with
    | [] => .error (bracket.ending.before [])
    | c :: rest =>
      if c = ',' ∧ afterItem then skipFrom limit .item (bracket :: outer) rest
      else if c = bracket.closing then skipFrom limit (.more true) outer rest
      else if afterItem then .error (bracket.noComma.on (c :: rest))
      else skipFrom limit .item (bracket :: outer) (c :: rest)
  | limit + 1, .item, .object :: outer, text =>
    match skipKey text with
    | .error fault => .error fault
    | .ok rest => skipFrom limit .value (.object :: outer) rest
  | limit + 1, .item, opened, text => skipFrom limit .value opened text

/-- Behind a value with no bracket open, skipping is over. -/
theorem skipFrom_outside (limit : Nat) (afterItem : Bool) (text : List Char) :
    skipFrom (limit + 1) (.more afterItem) [] text = .ok text := by
  rw [skipFrom]

/-- Skip a value. -/
def skipValue (text : List Char) : Except Fault (List Char) :=
  skipFrom (3 * text.length + 3) .value [] text

end HeaderExports.Json
