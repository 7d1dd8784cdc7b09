/-!
# Comments

A comment counts as one space. The scan passes over a text once, from left
to right, and is at any time in code, in one of the two kinds of comment or
in a literal. Comment openers in a literal and quotes in a comment have no
meaning.
-/

namespace HeaderExports.Text

/-- Where the scan for comments stands. -/
inductive Region where
  /-- Between tokens. -/
  | code
  /-- In a comment that a star and a slash close. -/
  | block
  /-- In a comment that ends before the next line end. -/
  | line
  /-- In a string or character literal opened by the given quote. -/
  | literal (quote : Char)
  deriving DecidableEq, Repr

/-- Whether a character opens a literal. -/
def isQuote (c : Char) : Bool := c == '"' || c == '\''

/-- The region behind a character of code that opens no comment. -/
def Region.afterCode (c : Char) : Region := if isQuote c then .literal c else .code

/-- The region behind an unescaped character of a literal: the same quote
closes it, and so does a line end. -/
def Region.afterLiteral (quote c : Char) : Region :=
  if c == quote || c == '\n' then .code else .literal quote

/-- What is left of a text from a given region on, with one space written for
each comment where it opens. In a literal a backslash hides the next
character. A comment or literal that nothing closes runs to the end. -/
def stripFrom : Region → List Char → List Char
  | .code, '/' :: '*' :: rest => ' ' :: stripFrom .block rest
  | .code, '/' :: '/' :: rest => ' ' :: stripFrom .line rest
  | .code, c :: rest => c :: stripFrom (.afterCode c) rest
  | .block, '*' :: '/' :: rest => stripFrom .code rest
  | .block, _ :: rest => stripFrom .block rest
  | .line, '\n' :: rest => '\n' :: stripFrom .code rest
  | .line, _ :: rest => stripFrom .line rest
  | .literal quote, '\\' :: c :: rest => '\\' :: c :: stripFrom (.literal quote) rest
  | .literal quote, c :: rest => c :: stripFrom (.afterLiteral quote c) rest
  | _, [] => []

/-- Write one space for each comment and keep the rest as it is. -/
def stripComments (text : List Char) : List Char := stripFrom .code text

/-- The inside of a block comment leaves nothing behind. -/
theorem stripFrom_block_cons {c : Char} {rest : List Char}
    (stays : ¬ (c = '*' ∧ rest.head? = some '/')) :
    stripFrom .block (c :: rest) = stripFrom .block rest := by
  rw [stripFrom]
  rintro rest' rfl rfl
  exact stays ⟨rfl, rfl⟩

end HeaderExports.Text
