import HeaderExports.Declaration.References
import Mathlib.Data.List.Basic

/-!
# The places at which a header names types

The places of a header are numbered: by the kind of the declaration, its place
among those of its kind, and the place of the type in it. A report on references
goes through the places in the order of these numbers, and each place at which a
name does not resolve is reported once.
-/

namespace HeaderExports

/-- The kinds of declarations that name types, in the order of a report. -/
inductive SiteKind where
  /-- A function. -/
  | function
  /-- A function pointer type. -/
  | callback
  /-- A struct without a type name of its own. -/
  | struct
  /-- A struct declared with a type name. -/
  | aliasedStruct
  /-- A type name for an enumeration. -/
  | enumAlias
  /-- A type name for a struct. -/
  | structAlias
  deriving DecidableEq, Repr

/-- The place of a kind in the order of a report. -/
def SiteKind.rank : SiteKind → Nat
  | .function => 0
  | .callback => 1
  | .struct => 2
  | .aliasedStruct => 3
  | .enumAlias => 4
  | .structAlias => 5

/-- All kinds, in the order of a report. -/
def SiteKind.all : List SiteKind :=
  [.function, .callback, .struct, .aliasedStruct, .enumAlias, .structAlias]

/-- Every kind comes in a report. -/
theorem SiteKind.mem_all (kind : SiteKind) : kind ∈ all := by
  cases kind <;> decide

/-- A place at which a type may be named. -/
structure TypeSite where
  /-- The kind of the declaration. -/
  kind : SiteKind
  /-- Which declaration of its kind it is. -/
  declaration : Nat
  /-- Which type of the declaration it is. A signature has the type returned in
  front of those of its parameters. -/
  part : Nat
  deriving DecidableEq, Repr

/-- One place stands in front of another in the order of a report. -/
def TypeSite.Before (site other : TypeSite) : Prop :=
  site.kind.rank < other.kind.rank ∨
    site.kind = other.kind ∧ (site.declaration < other.declaration ∨
      site.declaration = other.declaration ∧ site.part < other.part)

/-- The types of a signature: the type returned, then those of the parameters. -/
def TypeUse.inSignature? (owner returnType : String) (parameters : List Parameter) :
    Nat → Option TypeUse
  | 0 => some ⟨owner, returnType⟩
  | j + 1 => parameters[j]?.map fun parameter =>
    ⟨owner ++ "(" ++ parameter.name ++ ")", parameter.type⟩

/-- The types of the members of a struct. -/
def TypeUse.inFields? (owner : String) (fields : List Field) (part : Nat) : Option TypeUse :=
  fields[part]?.map fun field => ⟨owner ++ "." ++ field.name, field.type⟩

/-- The one type that a type name stands for. -/
def TypeUse.inAlias? (typeName tag : String) : Nat → Option TypeUse
  | 0 => some ⟨"typedef " ++ typeName, tag⟩
  | _ + 1 => none

namespace Header

open TypeUse (inAlias? inFields? inSignature?)

/-- The type that a header names at a place, if there is one. -/
def use? (header : Header) (site : TypeSite) : Option TypeUse :=
  match site.kind with
  | .function => header.functions[site.declaration]?.bind fun function =>
    inSignature? ("function " ++ function.name) function.returnType function.parameters site.part
  | .callback => header.callbacks[site.declaration]?.bind fun callback =>
    inSignature? ("function pointer " ++ callback.name) callback.returnType callback.parameters
      site.part
  | .struct => header.structs[site.declaration]?.bind fun declared =>
    inFields? ("struct " ++ declared.name) declared.fields site.part
  | .aliasedStruct => header.aliasedStructs[site.declaration]?.bind fun declared =>
    inFields? ("struct " ++ declared.typeName) declared.fields site.part
  | .enumAlias => header.enumAliases[site.declaration]?.bind fun named =>
    inAlias? named.typeName named.tag site.part
  | .structAlias => header.structAliases[site.declaration]?.bind fun named =>
    inAlias? named.typeName named.tag site.part

/-- The uses of types in the declarations of a kind, declaration by declaration. -/
def usesOf (header : Header) : SiteKind → List (List TypeUse)
  | .function => header.functions.map fun function =>
    ⟨"function " ++ function.name, function.returnType⟩ ::
      Parameter.typeUses ("function " ++ function.name) function.parameters
  | .callback => header.callbacks.map fun callback =>
    ⟨"function pointer " ++ callback.name, callback.returnType⟩ ::
      Parameter.typeUses ("function pointer " ++ callback.name) callback.parameters
  | .struct => header.structs.map fun declared =>
    Field.typeUses ("struct " ++ declared.name) declared.fields
  | .aliasedStruct => header.aliasedStructs.map fun declared =>
    Field.typeUses ("struct " ++ declared.typeName) declared.fields
  | .enumAlias => header.enumAliases.map fun named =>
    [⟨"typedef " ++ named.typeName, named.tag⟩]
  | .structAlias => header.structAliases.map fun named =>
    [⟨"typedef " ++ named.typeName, named.tag⟩]

variable (header : Header)

/-- All uses of types are those of the kinds, one kind after the other. -/
theorem typeUses_eq_flatMap :
    header.typeUses = SiteKind.all.flatMap fun kind => (header.usesOf kind).flatten := by
  simp only [typeUses, SiteKind.all, usesOf, List.flatMap_cons, List.flatMap_nil, List.append_nil,
    ← List.flatMap_def, List.append_assoc, ← List.map_eq_flatMap]

/-- The type at a place is a use of a declaration of its kind. -/
theorem use?_eq_bind (site : TypeSite) :
    header.use? site =
      (header.usesOf site.kind)[site.declaration]?.bind fun uses => uses[site.part]? := by
  obtain ⟨kind, i, part⟩ := site
  have hsignature (owner returnType : String) (parameters : List Parameter) :
      TypeUse.inSignature? owner returnType parameters part =
        (⟨owner, returnType⟩ :: Parameter.typeUses owner parameters)[part]? := by
    cases part with
    | zero => rfl
    | succ j => rw [TypeUse.inSignature?, List.getElem?_cons_succ, Parameter.typeUses,
        List.getElem?_map]
  have hfields (owner : String) (fields : List Field) :
      TypeUse.inFields? owner fields part = (Field.typeUses owner fields)[part]? := by
    rw [TypeUse.inFields?, Field.typeUses, List.getElem?_map]
  have halias (typeName tag : String) :
      TypeUse.inAlias? typeName tag part = [TypeUse.mk ("typedef " ++ typeName) tag][part]? := by
    cases part <;> rfl
  cases kind <;>
    simp only [use?, usesOf, List.getElem?_map, Option.bind_map, Function.comp_def, hsignature,
      hfields, halias]

/-- The places of a header and the types named there, in the order of a report. -/
def sites : List (TypeSite × TypeUse) :=
  SiteKind.all.flatMap fun kind => (header.usesOf kind).zipIdx.flatMap fun uses =>
    uses.1.zipIdx.map fun use => (⟨kind, uses.2, use.2⟩, use.1)

/-- The types at the places of a header are all uses of types. -/
theorem map_snd_sites : header.sites.map Prod.snd = header.typeUses := by
  have hflatten (uses : List (List TypeUse)) :
      uses.zipIdx.flatMap (fun entry => entry.1) = uses.flatten := by
    rw [List.flatMap_def, List.zipIdx_map_fst]
  rw [typeUses_eq_flatMap, sites, List.map_flatMap]
  refine List.flatMap_congr fun kind _ => ?_
  rw [← hflatten, List.map_flatMap]
  refine List.flatMap_congr fun entry _ => ?_
  rw [List.map_map]
  exact List.zipIdx_map_fst 0 entry.1

/-- The places of a header are those at which it names a type. -/
theorem mem_sites_iff {site : TypeSite} {use : TypeUse} :
    (site, use) ∈ header.sites ↔ header.use? site = some use := by
  rw [use?_eq_bind, Option.bind_eq_some_iff]
  simp only [sites, List.mem_flatMap, List.mem_map, Prod.exists, List.mk_mem_zipIdx_iff_getElem?]
  constructor
  · rintro ⟨kind, -, uses, i, hi, use', j, hj, he⟩
    cases he
    exact ⟨uses, hi, hj⟩
  · rintro ⟨uses, hi, hj⟩
    exact ⟨site.kind, site.kind.mem_all, uses, site.declaration, hi, use, site.part, hj, rfl⟩

/-- Numbered items come in the order of their numbers. -/
theorem pairwise_zipIdx {α : Type} (items : List α) :
    items.zipIdx.Pairwise fun entry other => entry.2 < other.2 := by
  have hnumbers : (items.zipIdx.map Prod.snd).Pairwise (· < ·) := by
    rw [List.zipIdx_map_snd]
    exact List.pairwise_lt_range'
  exact List.pairwise_map.mp hnumbers

/-- The places of a header come in the order of a report. -/
theorem pairwise_sites : header.sites.Pairwise fun entry other => entry.1.Before other.1 := by
  refine List.pairwise_flatMap.mpr ⟨fun kind _ => List.pairwise_flatMap.mpr ⟨?_, ?_⟩, ?_⟩
  · -- within a declaration
    intro uses _
    refine List.pairwise_map.mpr ((pairwise_zipIdx uses.1).imp fun hlt => ?_)
    exact .inr ⟨rfl, .inr ⟨rfl, hlt⟩⟩
  · -- within a kind
    refine (pairwise_zipIdx (header.usesOf kind)).imp fun hlt => ?_
    refine List.forall_mem_map.mpr fun _ _ => List.forall_mem_map.mpr fun _ _ => ?_
    exact .inr ⟨rfl, .inl hlt⟩
  · have hranks : SiteKind.all.Pairwise fun kind other => kind.rank < other.rank := by decide
    refine hranks.imp fun hlt => ?_
    refine List.forall_mem_flatMap.mpr fun _ _ => List.forall_mem_map.mpr fun _ _ => ?_
    exact List.forall_mem_flatMap.mpr fun _ _ => List.forall_mem_map.mpr fun _ _ => .inl hlt

end Header

end HeaderExports
