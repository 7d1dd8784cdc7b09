import HeaderExports.Text.Unprintable

/-!
# Quoted texts

A text is quoted for a message so that every character in it can be seen:
quotes and backslashes are escaped, the common control characters have short
names, and characters without a glyph of their own are written as their code
points.
-/

namespace HeaderExports.Text

/-- Whether a character shows as itself and stands apart from its neighbours. -/
def isPrintable (c : Char) : Bool :=
  let point := c.toNat
  c == ' ' ||
    !(Table.unprintable.contains point || Table.filler.contains point ||
      Table.extending.contains point)

/-- A number in hexadecimal digits, lower case. -/
def hexDigits (value : Nat) : List Char := Nat.toDigits 16 value

/-- A character inside a quoted text. -/
def quoteChar (c : Char) : List Char :=
  if c = '"' then ['\\', '"']
  else if c = '\\' then ['\\', '\\']
  else if c = '\n' then ['\\', 'n']
  else if c = '\r' then ['\\', 'r']
  else if c = '\t' then ['\\', 't']
  else if c = '\x00' then ['\\', '0']
  else if isPrintable c then [c]
  else ['\\', 'u', '\x7b'] ++ hexDigits c.toNat ++ ['\x7d']

/-- A text in quotes. -/
def quoted (text : String) : String :=
  String.ofList ('"' :: text.toList.flatMap quoteChar ++ ['"'])

end HeaderExports.Text
