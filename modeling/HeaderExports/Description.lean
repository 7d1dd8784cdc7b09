import HeaderExports.Declaration.References
import HeaderExports.Text.Quoted

/-!
# Descriptions

One line about a value, for people who look at it: the name and type of a
function with the number of its parameters, the numbers of declarations of a
header, and the two sides of an unresolved reference.
-/

namespace HeaderExports

/-- A function in one line. -/
def FunctionDecl.description (function : FunctionDecl) : String :=
  "ExportFunction(name='" ++ function.name ++ "', return_type='" ++ function.returnType ++
    "', parameters=" ++ toString function.parameters.length ++ ")"

namespace Header

/-- The names of all structs that are declared with members, tags first. -/
def structNames (header : Header) : List String :=
  header.structs.map (·.name) ++ header.aliasedStructs.map (·.typeName)

/-- A header in one line. -/
def description (header : Header) : String :=
  "ProcessedHeader(functions=" ++ toString header.functions.length ++ ", constants=" ++
    toString header.constants.length ++ ", enums=" ++ toString header.enums.length ++
    ", structs=" ++ toString header.structNames.length ++ ")"

end Header

/-- An unresolved reference in one line. -/
def UnresolvedReference.description (reference : UnresolvedReference) : String :=
  "UnresolvedReference(location=" ++ Text.quoted reference.location ++ ", type_name=" ++
    Text.quoted reference.typeName ++ ")"

end HeaderExports
