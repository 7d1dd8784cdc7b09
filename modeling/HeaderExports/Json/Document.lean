/-!
# Documents

The JSON documents that hold a header are built from texts, lists and
records alone. A record keeps its members in order. Written out, every item
and every member stands on a line of its own, two spaces deeper than what
holds it.
-/

namespace HeaderExports.Json

/-- A document of texts, lists and records. -/
inductive Document where
  /-- A text. -/
  | text (content : String)
  /-- A list of documents. -/
  | list (items : List Document)
  /-- Documents under keys. -/
  | record (members : List (String × Document))

namespace Document

/-- The content of a text, empty for other documents. -/
def content : Document → String
  | text content => content
  | _ => ""

/-- The items of a list, none for other documents. -/
def items : Document → List Document
  | list items => items
  | _ => []

/-- The document under a key, an empty text if there is none. -/
def member (key : String) : Document → Document
  | record members => ((members.find? (·.1 = key)).map (·.2)).getD (text "")
  | _ => text ""

end Document

/-- A hexadecimal digit in lower case. -/
def hexDigit (value : Nat) : Char :=
  if value < 10 then Char.ofNat ('0'.toNat + value) else Char.ofNat ('a'.toNat + (value - 10))

/-- A character inside a written text. -/
def escapeChar (c : Char) : List Char :=
  if c = '"' then ['\\', '"']
  else if c = '\\' then ['\\', '\\']
  else if c = '\x08' then ['\\', 'b']
  else if c = '\x0c' then ['\\', 'f']
  else if c = '\n' then ['\\', 'n']
  else if c = '\r' then ['\\', 'r']
  else if c = '\t' then ['\\', 't']
  else if c.toNat < 0x20 then
    ['\\', 'u', '0', '0', hexDigit (c.toNat / 16), hexDigit (c.toNat % 16)]
  else [c]

/-- A text in quotes. -/
def quote (content : String) : List Char := '"' :: content.toList.flatMap escapeChar ++ ['"']

/-- A new line at a depth. -/
def newLine (depth : Nat) : List Char := '\n' :: List.replicate (2 * depth) ' '

namespace Document

mutual

/-- A document written out at a depth. -/
def render (depth : Nat) : Document → List Char
  | text content => quote content
  | list [] => ['[', ']']
  | list (first :: rest) =>
    '[' :: newLine (depth + 1) ++ render (depth + 1) first ++ renderItems (depth + 1) rest ++
      newLine depth ++ [']']
  | record [] => ['\x7b', '\x7d']
  | record (first :: rest) =>
    '\x7b' :: newLine (depth + 1) ++ renderMember (depth + 1) first ++
      renderMembers (depth + 1) rest ++ newLine depth ++ ['\x7d']

/-- The items behind the first one. -/
def renderItems (depth : Nat) : List Document → List Char
  | [] => []
  | item :: rest => ',' :: newLine depth ++ render depth item ++ renderItems depth rest

/-- A member with its key. -/
def renderMember (depth : Nat) : String × Document → List Char
  | (key, value) => quote key ++ [':', ' '] ++ render depth value

/-- The members behind the first one. -/
def renderMembers (depth : Nat) : List (String × Document) → List Char
  | [] => []
  | first :: rest =>
    ',' :: newLine depth ++ renderMember depth first ++ renderMembers depth rest

end

/-- There are no more items than characters that they are written with. -/
theorem length_le_length_renderItems (depth : Nat) (items : List Document) :
    items.length ≤ (renderItems depth items).length := by
  induction items with
  | nil => exact Nat.zero_le _
  | cons document items ih =>
    simp only [renderItems, List.cons_append, List.length_cons, List.length_append]
    omega

/-- There are no more entries than characters that they are written with. -/
theorem length_le_length_renderMembers (depth : Nat) (entries : List (String × Document)) :
    entries.length ≤ (renderMembers depth entries).length := by
  induction entries with
  | nil => exact Nat.zero_le _
  | cons entry entries ih =>
    simp only [renderMembers, List.cons_append, List.length_cons, List.length_append]
    omega

/-- A document written out. -/
def written (document : Document) : String := String.ofList (render 0 document)

end Document

end HeaderExports.Json
