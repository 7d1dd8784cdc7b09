import HeaderExports.Text.Additions
import HeaderExports.Text.Letters
import HeaderExports.Text.Marks

/-!
# Word characters and identifier fragments

The names of a declaration are runs of word characters: letters and other
alphabetic characters, marks, decimal digits, connectors such as the low
line, and the two join controls, as version 16.0 of Unicode has them. The
export marker is drawn from alphabetic characters, numerals of every kind and
the low line, those that version 17.0 adds included.
-/

namespace HeaderExports.Text

/-- ASCII letters and digits. -/
def isAsciiAlphanumeric (point : Nat) : Bool :=
  (0x61 ≤ point && point ≤ 0x7A) || (0x41 ≤ point && point ≤ 0x5A) ||
    (0x30 ≤ point && point ≤ 0x39)

/-- Whether a character may be part of a name. -/
def isWord (c : Char) : Bool :=
  let point := c.toNat
  if point < 0x80 then isAsciiAlphanumeric point || point == 0x5F
  else
    (Table.alphabetic.contains point || Table.mark.contains point ||
      Table.decimalDigit.contains point || Table.connector.contains point ||
      Table.joinControl.contains point) && !Table.addition.contains point

/-- Whether a character is alphabetic or a numeral. -/
def isAlphanumeric (c : Char) : Bool :=
  let point := c.toNat
  if point < 0x80 then isAsciiAlphanumeric point
  else Table.alphabetic.contains point || Table.decimalDigit.contains point ||
    Table.otherNumeral.contains point

/-- The low line is a word character and no alphanumeric one. -/
theorem isWord_lowLine : isWord '_' = true ∧ isAlphanumeric '_' = false := by decide

end HeaderExports.Text
