/-!
# The shortest decimal of a binary fraction

A positive number `m · 2^q` of a binary format stands for all reals that
round to it. Its shortest decimal is the one with the fewest digits among
those reals, and of several the one nearest to the number.
-/

namespace HeaderExports.Decimal

/-- A decimal `digits · 10^exponent`. -/
structure Scientific where
  /-- The digits as one number. -/
  digits : Nat
  /-- The power of ten. -/
  exponent : Int
  deriving DecidableEq, Repr

/-- The reals that round to a number, as multiples of one unit: the number
itself and the ends of the interval around it. -/
structure Rounding where
  /-- The lower end. -/
  low : Nat
  /-- The number. -/
  value : Nat
  /-- The upper end. -/
  high : Nat
  /-- How many units make one. -/
  unit : Nat
  /-- Whether the ends round to the number as well. -/
  closed : Bool

/-- The interval of `m · 2^q`. The numbers below a power of two lie closer. -/
def Rounding.ofBinary (m : Nat) (q : Int) (powerOfTwo : Bool) : Rounding :=
  let factor := Nat.pow 2 (q - 2).toNat
  { low := (4 * m - if powerOfTwo then 1 else 2) * factor
    value := 4 * m * factor
    high := (4 * m + 2) * factor
    unit := Nat.pow 2 (2 - q).toNat
    closed := m % 2 == 0 }

namespace Rounding

/-- A decimal as multiples of the unit, both sides scaled to whole numbers. -/
def scaled (r : Rounding) (exponent : Int) : Nat × Nat :=
  (r.unit * Nat.pow 10 exponent.toNat, Nat.pow 10 (-exponent).toNat)

/-- Whether `digits · 10^exponent` rounds to the number. -/
def covers (r : Rounding) (digits : Nat) (exponent : Int) : Bool :=
  let (step, scale) := r.scaled exponent
  let place := digits * step
  if r.closed then r.low * scale ≤ place && place ≤ r.high * scale
  else r.low * scale < place && place < r.high * scale

/-- How far `digits · 10^exponent` is from the number. -/
def distance (r : Rounding) (digits : Nat) (exponent : Int) : Nat :=
  let (step, scale) := r.scaled exponent
  (digits * step - r.value * scale) + (r.value * scale - digits * step)

/-- Of two neighbours on a grid the one nearer to the number. Halfway between
them the even one is taken. -/
def nearer (r : Rounding) (below : Nat) (exponent : Int) : Nat :=
  match compare (r.distance below exponent) (r.distance (below + 1) exponent) with
  | .lt => below
  | .eq => below + below % 2
  | .gt => below + 1

/-- The neighbour of the number on the grid of a power of ten that rounds to
it, the nearer one if both do. -/
def onGrid? (r : Rounding) (exponent : Int) : Option Scientific :=
  let (step, scale) := r.scaled exponent
  let below := r.value * scale / step
  match r.covers below exponent && below != 0, r.covers (below + 1) exponent with
  | true, true => some ⟨r.nearer below exponent, exponent⟩
  | true, false => some ⟨below, exponent⟩
  | false, true => some ⟨below + 1, exponent⟩
  | false, false => none

/-- The first grid, from coarse to fine, that has a neighbour. -/
def shortestFrom (r : Rounding) : Nat → Int → Scientific
  | 0, exponent => ⟨0, exponent⟩
  | more + 1, exponent =>
    match r.onGrid? exponent with
    | some found => found
    | none => shortestFrom r more (exponent - 1)

end Rounding

/-- Move zeros at the end of the digits into the exponent. -/
def Scientific.trimmed : Nat → Scientific → Scientific
  | 0, number => number
  | more + 1, number =>
    if number.digits != 0 && number.digits % 10 == 0 then
      trimmed more ⟨number.digits / 10, number.exponent + 1⟩
    else number

/-- The leading bit of a normal number of 64 bits, which is not stored. -/
def hiddenBit : Nat := 0x10000000000000

/-- The sign bit of a number of 64 bits. -/
def signBit : Nat := 0x8000000000000000

/-- The shortest decimal of a positive finite number of 64 bits. No such number
reaches `10^309`, and none has more than 17 digits from its first one on. -/
def shortest (magnitude : UInt64) : Scientific :=
  let fraction : Nat := magnitude.toNat % hiddenBit
  let exponent : Nat := magnitude.toNat / hiddenBit
  let rounding :=
    if exponent = 0 then Rounding.ofBinary fraction (-1074) false
    else
      Rounding.ofBinary (fraction + hiddenBit) (Int.ofNat exponent - 1075)
        (fraction == 0 && 1 < exponent)
  (rounding.shortestFrom 660 309).trimmed 17

/-- An exponent with its sign. -/
def exponentText (exponent : Int) : String :=
  if 0 ≤ exponent then "e+" ++ toString exponent else "e" ++ toString exponent

/-- How a decimal is written: positionally with a point if the point stands at
most 16 places behind the first digit or 4 zeros in front of it, and with a
signed exponent otherwise. -/
def Scientific.text (number : Scientific) : String :=
  let digits := toString number.digits
  let length := digits.length
  let point : Int := length + number.exponent
  let zeros (count : Int) : String := String.ofList (List.replicate count.toNat '0')
  if 0 ≤ number.exponent ∧ point ≤ 16 then digits ++ zeros number.exponent ++ ".0"
  else if 0 < point ∧ point ≤ 16 then
    String.ofList (digits.toList.take point.toNat) ++ "." ++
      String.ofList (digits.toList.drop point.toNat)
  else if -5 < point ∧ point ≤ 0 then "0." ++ zeros (-point) ++ digits
  else if length = 1 then digits ++ exponentText (point - 1)
  else
    String.ofList (digits.toList.take 1) ++ "." ++ String.ofList (digits.toList.drop 1) ++
      exponentText (point - 1)

/-- A finite number of 64 bits in words: its sign and its shortest decimal. -/
def textOfFloat (value : Float) : String :=
  let bits := value.toBits.toNat
  let magnitude := bits % signBit
  let sign := if bits = magnitude then "" else "-"
  if magnitude = 0 then sign ++ "0.0" else sign ++ (shortest magnitude.toUInt64).text

end HeaderExports.Decimal
