import HeaderExports.Declaration

/-!
# Import declarations

An exported function is imported by two lines, an attribute that names the
library and the calling convention, and the declaration of the function.
Types and names are copied as they are.
-/

namespace HeaderExports

/-- The attribute in front of an imported function. -/
def importAttribute : String :=
  "[DllImport(LibName, CallingConvention = CallingConvention.Cdecl)]"

/-- A parameter as it is declared. -/
def Parameter.declaration (parameter : Parameter) : String :=
  parameter.type ++ " " ++ parameter.name

namespace FunctionDecl

/-- The declaration of an imported function. -/
def externLine (function : FunctionDecl) : String :=
  "public static extern " ++ function.returnType ++ " " ++ function.name ++ "(" ++
    String.intercalate ", " (function.parameters.map Parameter.declaration) ++ ");"

/-- The lines that import a function. -/
def importLines (function : FunctionDecl) : List String := [importAttribute, function.externLine]

end FunctionDecl

/-- The lines that import functions, in the order given. -/
def importLines (functions : List FunctionDecl) : List String :=
  functions.flatMap FunctionDecl.importLines

/-- The lines that import functions, as one text. -/
def importText (functions : List FunctionDecl) : String :=
  String.intercalate "\n" (importLines functions)

/-- Two lines import a function. -/
theorem length_importLines (functions : List FunctionDecl) :
    (importLines functions).length = 2 * functions.length := by
  induction functions with
  | nil => rfl
  | cons function rest ih =>
    simp only [importLines, List.flatMap_cons, FunctionDecl.importLines, List.length_append,
      List.length_cons, List.length_nil] at ih ⊢
    omega

end HeaderExports
