/-!
# Integer literals

The integer literals of C: decimal, hexadecimal behind `0x`, octal behind a
further zero, with suffixes for unsigned and long types, and a sign in front.
A value is kept only if it fits a signed word of 64 bits.
-/

namespace HeaderExports.IntegerLiteral

/-- The largest value of a signed word of 64 bits. -/
def maxValue : Int := 0x7FFFFFFFFFFFFFFF

/-- The least value of a signed word of 64 bits. -/
def minValue : Int := -0x8000000000000000

/-- A value, if it fits a signed word of 64 bits. -/
def fitting? (value : Int) : Option Int :=
  if minValue ≤ value ∧ value ≤ maxValue then some value else none

/-- The value of an ASCII digit, letters in either case standing for ten and more. -/
def digitValue? (c : Char) : Option Nat :=
  if '0' ≤ c ∧ c ≤ '9' then some (c.toNat - '0'.toNat)
  else if 'a' ≤ c ∧ c ≤ 'z' then some (c.toNat - 'a'.toNat + 10)
  else if 'A' ≤ c ∧ c ≤ 'Z' then some (c.toNat - 'A'.toNat + 10)
  else none

/-- Continue a number by digits of a radix. -/
def appendDigits? (radix : Nat) : Nat → List Char → Option Nat
  | value, [] => some value
  | value, c :: rest =>
    match digitValue? c with
    | some digit => if digit < radix then appendDigits? radix (value * radix + digit) rest else none
    | none => none

/-- The number written by one or more digits of a radix. -/
def natural? (radix : Nat) : List Char → Option Nat
  | [] => none
  | digits => appendDigits? radix 0 digits

/-- The number written by digits of a radix with at most one sign in front, if
it fits. -/
def signed? (radix : Nat) : List Char → Option Int
  | '-' :: digits => (natural? radix digits).bind fun value => fitting? (-value)
  | '+' :: digits => (natural? radix digits).bind fun value => fitting? value
  | digits => (natural? radix digits).bind fun value => fitting? value

/-- The letters that may close a literal. -/
def isSuffix (c : Char) : Bool := c == 'u' || c == 'U' || c == 'l' || c == 'L'

/-- Drop the letters that close a literal. -/
def dropSuffix (digits : List Char) : List Char := (digits.reverse.dropWhile isSuffix).reverse

/-- The value of a literal without leading minus and without suffix. -/
def magnitude? : List Char → Option Int
  | '0' :: 'x' :: digits => signed? 16 digits
  | '0' :: 'X' :: digits => signed? 16 digits
  | '0' :: c :: digits => signed? 8 (c :: digits)
  | digits => signed? 10 digits

/-- The value of a literal. One leading minus is taken off first and negates
what the rest stands for. -/
def value? : List Char → Option Int
  | '-' :: rest => (magnitude? (dropSuffix rest)).bind fun value => fitting? (-value)
  | rest => magnitude? (dropSuffix rest)

/-- What fits is the value itself and lies in the range. -/
theorem fitting?_eq_some {value result : Int} :
    fitting? value = some result ↔ result = value ∧ minValue ≤ value ∧ value ≤ maxValue := by
  by_cases fits : minValue ≤ value ∧ value ≤ maxValue
  · simp [fitting?, fits, eq_comm]
  · simp [fitting?, fits]

end HeaderExports.IntegerLiteral
