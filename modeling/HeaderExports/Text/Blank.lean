import HeaderExports.Text.Ranges

/-!
# Blanks

A blank is a character with the Unicode property White_Space. Blanks
separate the words of a declaration, and the edges of a type name are
trimmed of them.
-/

namespace HeaderExports.Text

/-- Code points with the property White_Space. -/
def Table.blank : Ranges :=
  [(0x9, 0xD), (0x20, 0x20), (0x85, 0x85), (0xA0, 0xA0), (0x1680, 0x1680), (0x2000, 0x200A),
   (0x2028, 0x2029), (0x202F, 0x202F), (0x205F, 0x205F), (0x3000, 0x3000)]

/-- Whether a character is a blank. -/
def isBlank (c : Char) : Bool := Table.blank.contains c.toNat

/-- Drop the blanks at both ends. -/
def trim (text : List Char) : List Char :=
  ((text.dropWhile isBlank).reverse.dropWhile isBlank).reverse

/-- Drop every blank. -/
def dropBlanks (text : List Char) : List Char := text.filter (! isBlank ·)

/-- What is left when every blank is dropped is exactly the other characters. -/
theorem mem_dropBlanks {c : Char} {text : List Char} :
    c ∈ dropBlanks text ↔ c ∈ text ∧ isBlank c = false := by
  simp [dropBlanks]

end HeaderExports.Text
