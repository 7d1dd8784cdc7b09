import HeaderExports.Declaration
import HeaderExports.Text.Cut

/-!
# Array suffixes of fields

A field that is a fixed-size array carries the size in brackets behind its
name. The suffix begins at the first opening bracket, wherever the name
comes from. Both the size and the name in front of it are pieces of the name,
which are cut out at the bytes of the brackets.
-/

namespace HeaderExports.Field

open Text (CutFault cut firstByte?)

/-- The characters in front of the first opening bracket. -/
def beforeBracket (name : List Char) : List Char := name.takeWhile (· ≠ '[')

/-- The characters between the first opening bracket and the next closing
one, if both are there and anything stands between them. -/
def betweenBrackets? (name : List Char) : Option (List Char) :=
  match name.dropWhile (· ≠ '[') with
  | [] => none
  | _ :: inside =>
    let size := inside.takeWhile (· ≠ ']')
    if size.isEmpty || size.length = inside.length then none else some size

/-- The name without an array suffix. -/
def baseName (field : Field) : String := String.ofList (beforeBracket field.name.toList)

/-- The array size written in the suffix. -/
def arraySize? (field : Field) : Option String :=
  (betweenBrackets? field.name.toList).map String.ofList

/-- The base name as the piece in front of the first opening bracket. -/
def cutBaseName (field : Field) : Except CutFault String :=
  match firstByte? '[' field.name.toList with
  | none => .ok field.name
  | some opening => cut field.name ⟨0, opening⟩

/-- The array size as the piece between the brackets. The closing one is searched
for in the suffix, and its place there counts from the opening one. -/
def cutArraySize? (field : Field) : Except CutFault (Option String) :=
  match firstByte? '[' field.name.toList with
  | none => .ok none
  | some opening => do
    let suffix ← cut field.name ⟨opening, field.name.utf8ByteSize⟩
    match firstByte? ']' suffix.toList with
    | none => return none
    | some closing =>
      let size ← cut field.name ⟨opening + 1, closing + opening⟩
      return if size = "" then none else some size

end HeaderExports.Field
