import HeaderExports.Declaration.References
import HeaderExports.Extraction

/-!
# Reports on an extraction

What an extraction tells about itself while it runs: the struct-like
declarations it tells apart, what it extracts, and the references that do
not resolve.
-/

namespace HeaderExports

/-- An event of an extraction. -/
inductive Event where
  /-- So many struct-like declarations were told apart. -/
  | classified (structLike : Nat)
  /-- A header was extracted from so many bytes. -/
  | extracted (header : Header) (bytes : Nat)
  /-- A reference does not resolve. -/
  | unresolved (reference : UnresolvedReference)
  deriving DecidableEq, Repr

namespace Event

/-- The event as a line of a log, with its severity in front. -/
def line : Event → String
  | .classified structLike =>
    "TRACE Classified " ++ toString structLike ++ " struct-like statements"
  | .extracted header bytes =>
    "DEBUG Extracted " ++ toString header.functions.length ++ " functions, " ++
      toString header.constants.length ++ " constants, " ++
      toString header.enums.length ++ " enums, " ++
      toString header.structs.length ++ " structs (" ++
      toString header.aliasedStructs.length ++ " typedef'd) from " ++
      toString bytes ++ " bytes"
  | .unresolved reference =>
    "WARN Unresolved type '" ++ reference.typeName ++ "' referenced by " ++ reference.location

end Event

/-- The events of an extraction with a check of references, in order. -/
def Grammar.events (grammar : Grammar) (content : String) : List Event :=
  let text := grammar.visibleText content.toList
  let header := grammar.declarations text
  .classified (grammar.structPlaces text).claimed.size ::
    .extracted header (Text.byteLength content.toList) ::
      header.unresolvedReferences.map .unresolved

end HeaderExports
