import HeaderExports.Proofs.References.Sites
import Mathlib.Data.List.Flatten

/-!
# What a report on references says

A report names the places at which a type is neither built in nor declared, all
of them and each of them once, in their order. A further declaration takes from a
report what it declares and leaves the rest as it is.
-/

namespace HeaderExports

/-- The report on a use of a type. -/
def TypeUse.reference (use : TypeUse) : UnresolvedReference :=
  ⟨use.location, bareName use.written⟩

namespace Header

/-- A header declares a type name: by a struct, an enumeration, a type name for
either of them, a function pointer type, or a struct with a type name, by that name
or by its tag if it has one. -/
def Declares (header : Header) (name : String) : Prop :=
  (∃ struct ∈ header.structs, struct.name = name) ∨
  (∃ enum ∈ header.enums, enum.name = name) ∨
  (∃ enumAlias ∈ header.enumAliases, enumAlias.typeName = name) ∨
  (∃ structAlias ∈ header.structAliases, structAlias.typeName = name) ∨
  (∃ callback ∈ header.callbacks, callback.name = name) ∨
  ∃ struct ∈ header.aliasedStructs, struct.typeName = name ∨ struct.tag ≠ "" ∧ struct.tag = name

/-- What is reported of a place, if a type is named there. -/
def reference? (header : Header) (site : TypeSite) : Option UnresolvedReference :=
  (header.use? site).map TypeUse.reference

section Places

variable (header : Header)

/-- The names of all types of a header are those that it declares. -/
theorem mem_declaredTypes_iff {name : String} :
    name ∈ header.declaredTypes ↔ header.Declares name := by
  have hempty (text : String) : (! text.isEmpty) = true ↔ text ≠ "" := by
    rw [Bool.not_eq_true', Bool.eq_false_iff, ne_eq, String.isEmpty_iff]
  have haliased : (∃ struct ∈ header.aliasedStructs,
        struct.typeName = name ∨ struct.tag ≠ "" ∧ struct.tag = name) ↔
      (∃ struct ∈ header.aliasedStructs, struct.typeName = name) ∨
        (∃ struct ∈ header.aliasedStructs, struct.tag = name) ∧ name ≠ "" := by
    constructor
    · rintro ⟨struct, hm, h | ⟨htag, rfl⟩⟩
      · exact .inl ⟨struct, hm, h⟩
      · exact .inr ⟨⟨struct, hm, rfl⟩, htag⟩
    · rintro (⟨struct, hm, h⟩ | ⟨⟨struct, hm, rfl⟩, htag⟩)
      · exact ⟨struct, hm, .inl h⟩
      · exact ⟨struct, hm, .inr ⟨htag, rfl⟩⟩
  simp only [declaredTypes, Declares, haliased, List.mem_append, List.mem_map, List.mem_filter,
    hempty, or_assoc]

/-- A name resolves exactly if it is empty, built in or declared. -/
theorem resolves_iff {name : String} :
    header.resolves name = true ↔ name = "" ∨ name ∈ builtinTypes ∨ header.Declares name := by
  rw [resolves, Bool.or_eq_true, Bool.or_eq_true, String.isEmpty_iff, List.contains_iff_mem,
    List.contains_iff_mem, mem_declaredTypes_iff, or_assoc]

/-- A report goes through the places at which a name does not resolve, in their
order. -/
theorem unresolvedReferences_eq_map :
    header.unresolvedReferences =
      (header.sites.filter fun entry => !header.resolves (TypeUse.bareName entry.2.written)).map
        fun entry => entry.2.reference := by
  rw [unresolvedReferences, ← map_snd_sites, List.map_map, List.filter_map]
  simp only [Function.comp_def, TypeUse.reference]

/-- The places that are reported. -/
theorem exists_reported :
    ∃ sites : List TypeSite, sites.Pairwise TypeSite.Before ∧
      (∀ site, site ∈ sites ↔ ∃ use, header.use? site = some use ∧
        header.resolves (TypeUse.bareName use.written) = false) ∧
      sites.map header.reference? = header.unresolvedReferences.map some := by
  refine ⟨(header.sites.filter fun entry =>
    !header.resolves (TypeUse.bareName entry.2.written)).map Prod.fst, ?_, fun site => ?_, ?_⟩
  · exact List.pairwise_map.mpr (header.pairwise_sites.filter _)
  · simp only [List.mem_map, List.mem_filter, Prod.exists, mem_sites_iff, Bool.not_eq_true',
      exists_and_right, exists_eq_right]
  · rw [unresolvedReferences_eq_map, List.map_map, List.map_map]
    refine List.map_congr_left fun entry hm => ?_
    have hsite := header.mem_sites_iff.mp (List.mem_of_mem_filter hm)
    exact congrArg (Option.map TypeUse.reference) hsite

end Places

/-! ## Further declarations -/

section Further

variable {header other : Header}

/-- If the same types are named and further names resolve, those names are taken
from the report. -/
theorem unresolvedReferences_of_resolves {further : String → Bool}
    (huses : other.typeUses = header.typeUses)
    (hresolves : ∀ name, other.resolves name = (header.resolves name || further name)) :
    other.unresolvedReferences =
      header.unresolvedReferences.filter fun reference => !further reference.typeName := by
  rw [unresolvedReferences, unresolvedReferences, List.filter_filter, huses]
  refine List.filter_congr fun reference _ => ?_
  rw [hresolves, Bool.not_or, Bool.and_comm]

/-- Structs without members that are added to others name no further type. -/
theorem flatMap_typeUses_of_perm {structs more : List StructDecl} {names : List String}
    (hsub : structs.Sublist more)
    (hperm : more.Perm (structs ++ names.map fun name => ⟨name, []⟩)) :
    (more.flatMap fun declared => Field.typeUses ("struct " ++ declared.name) declared.fields) =
      structs.flatMap fun declared =>
        Field.typeUses ("struct " ++ declared.name) declared.fields := by
  have hadded : (names.map fun name => StructDecl.mk name []).flatMap (fun declared =>
      Field.typeUses ("struct " ++ declared.name) declared.fields) = [] :=
    List.flatMap_eq_nil_iff.mpr (List.forall_mem_map.mpr fun _ _ => rfl)
  have hlength := (hperm.flatMap_right fun declared : StructDecl =>
    Field.typeUses ("struct " ++ declared.name) declared.fields).length_eq
  rw [List.flatMap_append, hadded, List.append_nil] at hlength
  exact ((hsub.flatMap _).eq_of_length hlength.symm).symm

/-- Structs that are added to others declare their names. -/
theorem resolves_of_perm {structs : List StructDecl} {names : List String}
    (hperm : structs.Perm (header.structs ++ names.map fun name => ⟨name, []⟩)) (name : String) :
    ({ header with structs := structs } : Header).resolves name =
      (header.resolves name || decide (name ∈ names)) := by
  have hstructs : (∃ struct ∈ structs, struct.name = name) ↔
      (∃ struct ∈ header.structs, struct.name = name) ∨ name ∈ names := by
    simp only [hperm.mem_iff, List.mem_append, List.mem_map, or_and_right, exists_or]
    refine or_congr_right ⟨?_, fun hm => ⟨_, ⟨name, hm, rfl⟩, rfl⟩⟩
    rintro ⟨_, ⟨added, hm, rfl⟩, rfl⟩
    exact hm
  rw [Bool.eq_iff_iff, Bool.or_eq_true, decide_eq_true_eq, resolves_iff, resolves_iff]
  simp only [Declares, hstructs]
  grind

/-- Enumerations of the same names declare the same. -/
theorem resolves_of_enums {enums : List EnumDecl} (constants : List ConstantDecl)
    (hperm : (enums.map (·.name)).Perm (header.enums.map (·.name))) (name : String) :
    ({ header with enums := enums, constants := constants } : Header).resolves name =
      header.resolves name := by
  have henums : (∃ enum ∈ enums, enum.name = name) ↔ ∃ enum ∈ header.enums, enum.name = name := by
    have hmem := hperm.mem_iff (a := name)
    rwa [List.mem_map, List.mem_map] at hmem
  rw [Bool.eq_iff_iff, resolves_iff, resolves_iff]
  simp only [Declares, henums]

end Further

/-! ## The report -/

/-- A report on references is complete, and declarations act on it as a filter. It
goes through the places at which a type is named that has a bare name, neither
built in nor declared, all of them in their order and each of them once. Structs
without members that are added, wherever they are put, take from the report the
entries of their names and no others, so nothing is left if they bear all reported
names. Constants do not matter, and of enumerations only the names, in any order. -/
theorem unresolvedReferences_exact (header : Header) :
    (∃ sites : List TypeSite, sites.Pairwise TypeSite.Before ∧
      (∀ site, site ∈ sites ↔ ∃ use, header.use? site = some use ∧
        TypeUse.bareName use.written ≠ "" ∧ TypeUse.bareName use.written ∉ builtinTypes ∧
          ¬header.Declares (TypeUse.bareName use.written)) ∧
      sites.map header.reference? = header.unresolvedReferences.map some) ∧
    (∀ (names : List String) (structs : List StructDecl), header.structs.Sublist structs →
      structs.Perm (header.structs ++ names.map fun name => ⟨name, []⟩) →
      let report := ({ header with structs := structs } : Header).unresolvedReferences
      report = header.unresolvedReferences.filter (fun reference => reference.typeName ∉ names) ∧
        ((∀ reference ∈ header.unresolvedReferences, reference.typeName ∈ names) →
          report = [])) ∧
    ∀ (constants : List ConstantDecl) (enums : List EnumDecl),
      (enums.map (·.name)).Perm (header.enums.map (·.name)) →
      ({ header with enums := enums, constants := constants } : Header).unresolvedReferences =
        header.unresolvedReferences := by
  have hunresolved (name : String) : header.resolves name = false ↔
      name ≠ "" ∧ name ∉ builtinTypes ∧ ¬header.Declares name := by
    rw [Bool.eq_false_iff, ne_eq, resolves_iff, not_or, not_or]
  refine ⟨?_, fun names structs hsub hperm => ?_, fun constants enums hperm => ?_⟩
  · obtain ⟨sites, hordered, hmem, hreport⟩ := header.exists_reported
    refine ⟨sites, hordered, fun site => (hmem site).trans ?_, hreport⟩
    simp only [hunresolved]
  · have huses : ({ header with structs := structs } : Header).typeUses = header.typeUses := by
      rw [typeUses, typeUses, flatMap_typeUses_of_perm hsub hperm]
    have hfilter := unresolvedReferences_of_resolves huses (resolves_of_perm hperm)
    simp only [← decide_not] at hfilter
    refine ⟨hfilter, fun hall => hfilter.trans (List.filter_eq_nil_iff.mpr fun reference hm => ?_)⟩
    rw [decide_eq_true_eq, not_not]
    exact hall reference hm
  · rw [unresolvedReferences, unresolvedReferences]
    simp only [resolves_of_enums constants hperm]
    rfl

/-- A header with unknown types in a signature, in members and behind a type name,
to which structs are added in front and behind, and of which the enumerations are
turned around. -/
theorem unresolvedReferences_exact_of_added :
    let header : Header :=
      { Header.empty with
        functions := [⟨"paint", "Widget*", [⟨"Mode", "mode"⟩, ⟨"const Color*", "tint"⟩]⟩]
        enums := [⟨"Mode", [⟨"FAST", ""⟩, ⟨"SLOW", ""⟩]⟩, ⟨"Level", []⟩]
        structs := [⟨"Pair", [⟨"Node*", "left"⟩, ⟨"Node*", "right"⟩]⟩]
        structAliases := [⟨"Widget", "Window"⟩]
        aliasedStructs := [⟨"", "Point", [⟨"int", "x"⟩]⟩] }
    let added : List StructDecl := [⟨"Node", []⟩, ⟨"Pair", [⟨"Node*", "left"⟩, ⟨"Node*", "right"⟩]⟩,
      ⟨"Widget", []⟩]
    let enums : List EnumDecl := [⟨"Level", []⟩, ⟨"Mode", [⟨"SLOW", ""⟩, ⟨"FAST", ""⟩]⟩]
    header.structs.Sublist added ∧
      added.Perm (header.structs ++ ["Widget", "Node"].map fun name => ⟨name, []⟩) ∧
      (enums.map (·.name)).Perm (header.enums.map (·.name)) ∧
      ({ header with structs := added } : Header).unresolvedReferences =
        [⟨"function paint(tint)", "Color"⟩] ∧
      ({ header with enums := enums, constants := [⟨"A", "1"⟩] } : Header).unresolvedReferences =
        header.unresolvedReferences := by
  intro header added enums
  have hsub : header.structs.Sublist added := by decide
  have hperm : added.Perm (header.structs ++ ["Widget", "Node"].map fun name => ⟨name, []⟩) := by
    decide
  have henums : (enums.map (·.name)).Perm (header.enums.map (·.name)) := by decide
  obtain ⟨-, hadded, hturned⟩ := unresolvedReferences_exact header
  have hrest : header.unresolvedReferences.filter
      (fun reference => reference.typeName ∉ ["Widget", "Node"]) =
        [⟨"function paint(tint)", "Color"⟩] := by decide +kernel
  exact ⟨hsub, hperm, henums, (hadded _ added hsub hperm).1.trans hrest,
    hturned [⟨"A", "1"⟩] enums henums⟩

end Header

end HeaderExports
