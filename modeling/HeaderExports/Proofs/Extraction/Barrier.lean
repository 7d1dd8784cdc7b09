import HeaderExports.Proofs.Extraction.Marks
import HeaderExports.Proofs.Grammar.Barrier
import HeaderExports.Proofs.Structs.Exclusive

/-!
# Extraction across a barrier

Where a text separates the declarations of a grammar, what is extracted from
both sides together is what is extracted from each of them. For most kinds this
is a law of the scan. Struct-like declarations are kept or left out by the
spans claimed before them: the spans on one side of the barrier never meet
those on the other side, and moving all of them by the same number of bytes
changes no decision.
-/

namespace HeaderExports

open Text (Span byteLength byteLength_append stripComments)

/-- The declarations of two headers, kind by kind. -/
instance : Append Header where
  append left right :=
    { functions := left.functions ++ right.functions
      constants := left.constants ++ right.constants
      callbacks := left.callbacks ++ right.callbacks
      enums := left.enums ++ right.enums
      enumAliases := left.enumAliases ++ right.enumAliases
      structs := left.structs ++ right.structs
      structAliases := left.structAliases ++ right.structAliases
      aliasedStructs := left.aliasedStructs ++ right.aliasedStructs }

/-! ## Claims on both sides -/

section Claims

variable {σ : Type} {bytes : ℕ}

/-- Moving all spans by the same number of bytes keeps the free ones free. -/
theorem free_shift_iff (earlier : List (Occurrence σ)) (found : Occurrence σ) :
    SpanSet.Free (spansOf (earlier.map (Occurrence.shift bytes))) (found.shift bytes).span ↔
      SpanSet.Free (spansOf earlier) found.span := by
  have hmeets (other : Occurrence σ) :
      (other.shift bytes).span.meets (found.shift bytes).span = other.span.meets found.span := by
    simp only [Occurrence.shift, Span.meets, Span.isEmpty, Nat.add_le_add_iff_right,
      Nat.add_lt_add_iff_right]
  simp only [SpanSet.free_iff, spansOf, List.forall_mem_map, hmeets]
  simp only [Occurrence.shift, Nat.add_lt_add_iff_right]

/-- Spans that a span does not meet do not matter to it. -/
theorem free_append_iff {taken others : List Span} {span : Span}
    (ho : ∀ other ∈ others, other.meets span = false) :
    SpanSet.Free (taken ++ others) span ↔ SpanSet.Free taken span := by
  rw [SpanSet.free_iff, SpanSet.free_iff, List.forall_mem_append]
  exact and_congr_right fun _ => and_iff_left ho

/-- What lies in front of a place and what is moved behind it is kept or left
out as if it stood alone. -/
theorem filter_free_shift {left right earlier earlier' : List (Occurrence σ)}
    (hl : ∀ found ∈ left, found.span.stop ≤ bytes)
    (he : ∀ found ∈ earlier, found.span.stop ≤ bytes) {taken : List Span}
    (ht : taken.Perm (spansOf (earlier ++ earlier'.map (Occurrence.shift bytes)))) :
    (left ++ right.map (Occurrence.shift bytes)).filter
        (fun found => SpanSet.Free taken found.span) =
      left.filter (fun found => SpanSet.Free (spansOf earlier) found.span) ++
        (right.filter fun found => SpanSet.Free (spansOf earlier') found.span).map
          (Occurrence.shift bytes) := by
  rw [spansOf, List.map_append, ← spansOf, ← spansOf] at ht
  rw [List.filter_append, List.filter_map]
  congr 1
  · refine List.filter_congr fun found hf => decide_eq_decide.mpr ?_
    rw [SpanSet.free_congr ht]
    refine free_append_iff (List.forall_mem_map.mpr (List.forall_mem_map.mpr fun other _ => ?_))
    exact (SpanSet.meets_eq_false_of_le
      (Nat.le_trans (hl found hf) (Nat.le_add_left _ _))).2
  · refine congrArg _ (List.filter_congr fun found _ => decide_eq_decide.mpr ?_)
    rw [SpanSet.free_congr (ht.trans List.perm_append_comm), ← @free_shift_iff _ bytes]
    refine free_append_iff (List.forall_mem_map.mpr fun other ho => ?_)
    exact (SpanSet.meets_eq_false_of_le
      (Nat.le_trans (he other ho) (Nat.le_add_left _ _))).1

end Claims

namespace Grammar

open Pattern

/-- A text separates the declarations of every kind. -/
structure SeparatedBy (grammar : Grammar) (bar : List Char) : Prop where
  /-- Exported functions. -/
  function : Separates bar grammar.function
  /-- Constants. -/
  constant : Separates bar grammar.constant
  /-- Function pointer types. -/
  callback : Separates bar grammar.callback
  /-- Enumerations. -/
  enum : Separates bar grammar.enum
  /-- Type names for enumerations. -/
  enumAlias : Separates bar grammar.enumAlias
  /-- Structs without a type name of their own. -/
  struct : Separates bar grammar.struct
  /-- Type names for structs. -/
  structAlias : Separates bar grammar.structAlias
  /-- Structs declared with a type name. -/
  aliasedStruct : Separates bar grammar.aliasedStruct

/-- What is made of the marks of a scan across a barrier is made of both sides. -/
theorem map_scan_of_separates {α : Type} {p : Pattern Part} {bar : List Char}
    (hs : Separates bar p) (hn : ∀ marks : Marks Part, ¬Spells p [] marks)
    {f : Occurrence Part → α}
    (hf : ∀ found found' : Occurrence Part, found.marks = found'.marks → f found = f found')
    (left right : List Char) :
    (p.scan (left ++ (bar ++ right))).map f = (p.scan left).map f ++ (p.scan right).map f := by
  rw [scan_of_separates hs hn, List.map_append, List.map_map]
  exact congrArg _ (List.map_congr_left fun found _ => hf _ found rfl)

section Separated

variable {grammar : Grammar} {bar : List Char} (hb : 1 < bar.length)

/-- What is found in front of a barrier stops in front of it. -/
theorem stop_le_of_mem_scan {p : Pattern Part} {left : List Char} {found : Occurrence Part}
    (hm : found ∈ p.scan left) : found.span.stop ≤ byteLength (left ++ bar) := by
  have hbounds := (bounds_of_mem_scanFrom hm).2.2
  rw [byteLength_append]
  omega

include hb

/-- One phase of the classification decides each side of a barrier on its own,
if what was kept before it does not reach over the barrier. -/
theorem filter_scan_of_separates {p : Pattern Part} (hs : Separates bar p)
    {left right : List Char} {earlier earlier' : List (Occurrence Part)}
    (he : ∀ found ∈ earlier, found.span.stop ≤ byteLength (left ++ bar)) {taken : List Span}
    (ht : taken.Perm (spansOf (earlier ++
      earlier'.map (Occurrence.shift (byteLength (left ++ bar)))))) :
    (p.scan (left ++ (bar ++ right))).filter (fun found => SpanSet.Free taken found.span) =
      (p.scan left).filter (fun found => SpanSet.Free (spansOf earlier) found.span) ++
        ((p.scan right).filter fun found => SpanSet.Free (spansOf earlier') found.span).map
          (Occurrence.shift (byteLength (left ++ bar))) := by
  rw [scan_of_separates hs (hs.not_spells_nil hb)]
  exact filter_free_shift (fun found hm => stop_le_of_mem_scan hm) he ht

/-- Each side of a barrier has its own struct-like declarations. -/
theorem structPlaces_of_separatedBy (hs : grammar.SeparatedBy bar) (left right : List Char) :
    let shift := List.map (Occurrence.shift (byteLength (left ++ bar)))
    let whole := grammar.structPlaces (left ++ (bar ++ right))
    whole.aliased = (grammar.structPlaces left).aliased ++
        shift (grammar.structPlaces right).aliased ∧
      whole.aliases = (grammar.structPlaces left).aliases ++
        shift (grammar.structPlaces right).aliases ∧
      whole.bare = (grammar.structPlaces left).bare ++ shift (grammar.structPlaces right).bare := by
  intro shift whole
  obtain ⟨hwhole1, hwhole2, hwhole3, -⟩ := structPlaces_phases grammar (left ++ (bar ++ right))
  obtain ⟨hleft1, hleft2, hleft3, -⟩ := structPlaces_phases grammar left
  obtain ⟨hright1, hright2, hright3, -⟩ := structPlaces_phases grammar right
  have haliased : whole.aliased = (grammar.structPlaces left).aliased ++
      shift (grammar.structPlaces right).aliased := by
    rw [hleft1, hright1]
    exact hwhole1.trans (@filter_scan_of_separates bar hb _ hs.aliasedStruct left right [] []
      (List.forall_mem_nil _) _ (List.Perm.refl _))
  have hkept1 : ∀ found ∈ (grammar.structPlaces left).aliased,
      found.span.stop ≤ byteLength (left ++ bar) := by
    rw [hleft1]
    exact fun found hm => stop_le_of_mem_scan (List.mem_of_mem_filter hm)
  have haliases : whole.aliases = (grammar.structPlaces left).aliases ++
      shift (grammar.structPlaces right).aliases := by
    rw [hleft2, hright2]
    exact hwhole2.trans (filter_scan_of_separates hb hs.structAlias hkept1
      (haliased ▸ List.Perm.refl _))
  have hkept2 : ∀ found ∈ (grammar.structPlaces left).aliases,
      found.span.stop ≤ byteLength (left ++ bar) := by
    rw [hleft2]
    exact fun found hm => stop_le_of_mem_scan (List.mem_of_mem_filter hm)
  -- the spans of both phases, sorted by the side of the barrier
  have hsides : (spansOf (whole.aliased ++ whole.aliases)).Perm
      (spansOf (((grammar.structPlaces left).aliased ++ (grammar.structPlaces left).aliases) ++
        shift ((grammar.structPlaces right).aliased ++ (grammar.structPlaces right).aliases))) := by
    refine List.Perm.map _ ?_
    rw [haliased, haliases, show shift = List.map _ from rfl, List.map_append, List.append_assoc,
      List.append_assoc]
    exact List.Perm.append_left _ (List.perm_append_comm_assoc _ _ _)
  refine ⟨haliased, haliases, ?_⟩
  rw [hleft3, hright3]
  exact hwhole3.trans (filter_scan_of_separates hb hs.struct
    (List.forall_mem_append.mpr ⟨hkept1, hkept2⟩) hsides)

/-- What is extracted across a barrier is what is extracted on both sides. -/
theorem declarations_of_separatedBy (hs : grammar.SeparatedBy bar) (left right : List Char) :
    grammar.declarations (left ++ (bar ++ right)) =
      grammar.declarations left ++ grammar.declarations right := by
  obtain ⟨haliased, haliases, hbare⟩ := structPlaces_of_separatedBy hb hs left right
  have hmap {α : Type} {p : Pattern Part} (hp : Separates bar p) {f : Occurrence Part → α}
      (hf : ∀ found found' : Occurrence Part, found.marks = found'.marks → f found = f found') :=
    map_scan_of_separates hp (hp.not_spells_nil hb) hf left right
  refine (Header.mk.injEq ..).mpr ⟨?_, ?_, ?_, ?_, ?_, ?_, ?_, ?_⟩
  · refine hmap hs.function fun found found' he => ?_
    rw [Occurrence.leaf_congr he, Occurrence.leaf_congr he, Occurrence.part_congr he]
  · refine hmap hs.constant fun found found' he => ?_
    rw [Occurrence.leaf_congr he, Occurrence.leaf_congr he]
  · refine hmap hs.callback fun found found' he => ?_
    rw [Occurrence.leaf_congr he, Occurrence.leaf_congr he, Occurrence.part_congr he]
  · refine hmap hs.enum fun found found' he => ?_
    rw [Occurrence.leaf_congr he, Occurrence.part_congr he]
  · refine hmap hs.enumAlias fun found found' he => ?_
    rw [Occurrence.leaf_congr he, Occurrence.leaf_congr he]
  · change List.map _ _ = List.map _ _ ++ List.map _ _
    rw [hbare, List.map_append, List.map_map]
    rfl
  · change List.map _ _ = List.map _ _ ++ List.map _ _
    rw [haliases, List.map_append, List.map_map]
    rfl
  · change List.map _ _ = List.map _ _ ++ List.map _ _
    rw [haliased, List.map_append, List.map_map]
    rfl

end Separated

/-- A lone number sign separates the declarations of every kind, whatever the
marker. -/
theorem separatedBy_barrier (marker : ExportMarker) (keepsComments : Bool) :
    (withMarker marker keepsComments).SeparatedBy barrier.toList where
  function := separates_function marker
  constant := separates_constant
  callback := separates_callback
  enum := separates_enum
  enumAlias := separates_alias (by decide)
  struct := separates_struct
  structAlias := separates_alias (by decide)
  aliasedStruct := separates_aliasedStruct

/-- A number sign on a line of its own separates two texts: if comments are
kept, what is extracted from the whole is what is extracted from the texts, kind
by kind and in order, however they end and begin. If comments are stripped this
holds where no comment and no literal reaches over the line. -/
theorem extract_barrier (marker : ExportMarker) (left right : String) :
    let keeping := withMarker marker true
    let stripping := withMarker marker false
    keeping.extract (left ++ barrier ++ right) = keeping.extract left ++ keeping.extract right ∧
      (stripComments (left ++ barrier ++ right).toList =
          stripComments left.toList ++ barrier.toList ++ stripComments right.toList →
        stripping.extract (left ++ barrier ++ right) =
          stripping.extract left ++ stripping.extract right) := by
  have hb : 1 < barrier.toList.length := by decide
  constructor
  · have hkept := declarations_of_separatedBy hb (separatedBy_barrier marker true)
      left.toList right.toList
    rw [← List.append_assoc, ← String.toList_append, ← String.toList_append] at hkept
    exact hkept
  · intro hs
    have hstripped := declarations_of_separatedBy hb (separatedBy_barrier marker false)
      (stripComments left.toList) (stripComments right.toList)
    rw [← List.append_assoc, ← hs] at hstripped
    exact hstripped

/-- A struct and a function on both sides of a number sign, the function not
finished in front of it. -/
theorem extract_barrier_between_fragments :
    let left := "struct A \x7b int a; \x7d; // first\nAPP_EXPORT int f(int /* \x7b */ a"
    let right := "); typedef struct A B; /* # */ struct A \x7b int b; \x7d;"
    let stripping := withMarker .standard false
    stripComments (left ++ barrier ++ right).toList =
        stripComments left.toList ++ barrier.toList ++ stripComments right.toList ∧
      stripping.extract (left ++ barrier ++ right) =
        stripping.extract left ++ stripping.extract right := by
  intro left right stripping
  have hs : stripComments (left ++ barrier ++ right).toList =
      stripComments left.toList ++ barrier.toList ++ stripComments right.toList := by
    decide +kernel
  exact ⟨hs, (extract_barrier .standard left right).2 hs⟩

end Grammar

end HeaderExports
