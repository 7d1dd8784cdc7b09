import HeaderExports.Declaration
import HeaderExports.Grammar
import HeaderExports.SpanSet
import HeaderExports.Text.Comment
import HeaderExports.Text.OneLine

/-!
# Extraction

A header is read by scanning its text once for each kind of declaration.
What does not fit a pattern is left out; there are no errors. Every part of
a declaration is put on one line before it becomes a leaf or is scanned for
members.
-/

namespace HeaderExports

open Text (oneLine dropBlanks stripComments)

namespace Occurrence

/-- A part of a declaration on one line, empty if it is not written. -/
def part (found : Occurrence Part) (label : Part) : List Char :=
  oneLine ((found.part? label).getD [])

/-- A part of a declaration as text. -/
def leaf (found : Occurrence Part) (label : Part) : String := String.ofList (found.part label)

end Occurrence

/-- The places of a text that are read as struct-like declarations, by kind. -/
structure StructPlaces where
  /-- Structs declared with a type name. -/
  aliased : List (Occurrence Part)
  /-- Type names for structs. -/
  aliases : List (Occurrence Part)
  /-- Structs without a type name of their own. -/
  bare : List (Occurrence Part)
  /-- The spans of all of them. -/
  claimed : SpanSet

namespace Grammar

/-- The parameters of a list on one line. Commas are not looked at. -/
def parameters (grammar : Grammar) (list : List Char) : List Parameter :=
  (grammar.parameter.scan list).map fun found => ⟨found.leaf .type, found.leaf .name⟩

/-- The functions announced in a text. -/
def functions (grammar : Grammar) (text : List Char) : List FunctionDecl :=
  (grammar.function.scan text).map fun found =>
    ⟨found.leaf .name, found.leaf .type, grammar.parameters (found.part .body)⟩

/-- The constants defined in a text. -/
def constants (grammar : Grammar) (text : List Char) : List ConstantDecl :=
  (grammar.constant.scan text).map fun found => ⟨found.leaf .name, found.leaf .value⟩

/-- The function pointer types defined in a text. -/
def callbacks (grammar : Grammar) (text : List Char) : List CallbackDecl :=
  (grammar.callback.scan text).map fun found =>
    ⟨found.leaf .type, found.leaf .name, grammar.parameters (found.part .body)⟩

/-- The members in the body of an enumeration. A sign may stand apart from its
literal and is stored at it. -/
def enumerators (grammar : Grammar) (body : List Char) : List Enumerator :=
  (grammar.enumerator.scan body).map fun found =>
    ⟨found.leaf .name, String.ofList (dropBlanks (found.part .value))⟩

/-- The enumerations declared in a text. -/
def enums (grammar : Grammar) (text : List Char) : List EnumDecl :=
  (grammar.enum.scan text).map fun found =>
    ⟨found.leaf .name, grammar.enumerators (found.part .body)⟩

/-- The type names for enumerations in a text. -/
def enumAliases (grammar : Grammar) (text : List Char) : List EnumAlias :=
  (grammar.enumAlias.scan text).map fun found => ⟨found.leaf .tag, found.leaf .name⟩

/-- Whether a field's name has no bracket or is one array of fixed size. -/
def supportsFieldName (grammar : Grammar) (name : List Char) : Bool :=
  !name.contains '[' || grammar.fixedSize.accepts name

/-- The fields in the body of a struct. Arrays of other shapes are left out. -/
def fields (grammar : Grammar) (body : List Char) : List Field :=
  ((grammar.field.scan body).filter fun found =>
    grammar.supportsFieldName (found.part .name)).map fun found =>
      ⟨found.leaf .type, found.leaf .name⟩

/-- The struct-like declarations of a text. Each one claims its span, so that
none is read as two kinds; structs with a type name come first, then type
names, then the other structs. -/
def structPlaces (grammar : Grammar) (text : List Char) : StructPlaces :=
  let aliased := SpanSet.claimAll (·.span) .empty (grammar.aliasedStruct.scan text)
  let aliases := SpanSet.claimAll (·.span) aliased.2 (grammar.structAlias.scan text)
  let bare := SpanSet.claimAll (·.span) aliases.2 (grammar.struct.scan text)
  ⟨aliased.1, aliases.1, bare.1, bare.2⟩

/-- A struct read at a place. -/
def structDecl (grammar : Grammar) (found : Occurrence Part) : StructDecl :=
  ⟨found.leaf .name, grammar.fields (found.part .body)⟩

/-- A struct with a type name read at a place. -/
def aliasedStructDecl (grammar : Grammar) (found : Occurrence Part) : AliasedStruct :=
  ⟨found.leaf .tag, found.leaf .name, grammar.fields (found.part .body)⟩

/-- As many spans are claimed as struct-like declarations are read. -/
theorem size_claimed_structPlaces (grammar : Grammar) (text : List Char) :
    (grammar.structPlaces text).claimed.size =
      (grammar.structPlaces text).aliased.length + (grammar.structPlaces text).aliases.length +
        (grammar.structPlaces text).bare.length := by
  simp only [structPlaces, SpanSet.size_claimAll, SpanSet.size_empty, Nat.zero_add]

/-- The text that the patterns see. -/
def visibleText (grammar : Grammar) (content : List Char) : List Char :=
  if grammar.keepsComments then content else stripComments content

/-- Everything that a text declares. -/
def declarations (grammar : Grammar) (text : List Char) : Header :=
  let places := grammar.structPlaces text
  { functions := grammar.functions text
    constants := grammar.constants text
    callbacks := grammar.callbacks text
    enums := grammar.enums text
    enumAliases := grammar.enumAliases text
    structs := places.bare.map grammar.structDecl
    structAliases := places.aliases.map fun found => ⟨found.leaf .tag, found.leaf .name⟩
    aliasedStructs := places.aliased.map grammar.aliasedStructDecl }

/-- Everything that the content of a header declares. -/
def extract (grammar : Grammar) (content : String) : Header :=
  grammar.declarations (grammar.visibleText content.toList)

end Grammar

end HeaderExports
