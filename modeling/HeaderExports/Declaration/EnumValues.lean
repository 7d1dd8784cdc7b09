import HeaderExports.Declaration
import HeaderExports.Declaration.IntegerLiteral

/-!
# Values of enumerators

A member without initializer is one more than the member before it, and the
first one is zero. An initializer that is no integer literal has no value
here, nor have the members behind it up to the next literal. Counting stops
at the largest word as well.
-/

namespace HeaderExports

/-- The value behind another one, if it fits. -/
def successor? (value : Int) : Option Int :=
  if value < IntegerLiteral.maxValue then some (value + 1) else none

/-- The value of a member, given the value that counting would assign. -/
def Enumerator.value? (member : Enumerator) (counted : Option Int) : Option Int :=
  if member.value.isEmpty then counted else IntegerLiteral.value? member.value.toList

/-- Values of members from a given count on. -/
def EnumDecl.valuesFrom : Option Int → List Enumerator → List (String × Option Int)
  | _, [] => []
  | counted, member :: rest =>
    let value := member.value? counted
    (member.name, value) :: valuesFrom (value.bind successor?) rest

/-- The names of the members in order, each with its value if it has one. -/
def EnumDecl.resolvedValues (declared : EnumDecl) : List (String × Option Int) :=
  valuesFrom (some 0) declared.values

/-- Every member is answered under its name. -/
theorem EnumDecl.map_fst_resolvedValues (declared : EnumDecl) :
    declared.resolvedValues.map (·.1) = declared.values.map (·.name) := by
  suffices all : ∀ counted, (valuesFrom counted declared.values).map (·.1) =
      declared.values.map (·.name) from all (some 0)
  induction declared.values with
  | nil => exact fun _ => rfl
  | cons member rest ih => exact fun counted => by simp [valuesFrom, ih]

end HeaderExports
