import HeaderExports.Proofs.Pattern.Order
import HeaderExports.Proofs.Structs.Claims
import HeaderExports.Report

/-!
# Struct-like declarations exclude each other

The three phases of the classification share one set of claimed spans. What a
phase keeps is therefore decided by the phases before it alone: an occurrence
is left out exactly if it is empty or shares a byte with one kept earlier. This
holds for any three patterns, whatever they describe.
-/

namespace HeaderExports

open Text (Span)

/-- The spans of occurrences, in their order. -/
def spansOf {σ : Type} (found : List (Occurrence σ)) : List Span := found.map Occurrence.span

/-- Freedom does not depend on the order of the spans claimed before. -/
theorem SpanSet.free_congr {taken taken' : List Span} (hp : taken.Perm taken') (span : Span) :
    SpanSet.Free taken span ↔ SpanSet.Free taken' span := by
  simp only [SpanSet.Free, hp.mem_iff]

/-- One phase keeps what is free of all occurrences kept earlier, and claims
the spans of what it keeps. -/
theorem SpanSet.claimAll_scan {σ : Type} {claimed : SpanSet} (ho : claimed.Ordered)
    {earlier : List (Occurrence σ)} (he : claimed.spans.Perm (spansOf earlier))
    (p : Pattern σ) (text : List Char) :
    let phase := SpanSet.claimAll Occurrence.span claimed (p.scan text)
    phase.1 = (p.scan text).filter (fun found => SpanSet.Free (spansOf earlier) found.span) ∧
      phase.2.Ordered ∧ phase.2.spans.Perm (spansOf (earlier ++ phase.1)) := by
  have hkept := SpanSet.claimAll_eq_filter (Occurrence.span) ho (Pattern.pairwise_scan p text)
  have hclaimed := SpanSet.perm_claimAll (Occurrence.span) ho (p.scan text)
  refine ⟨?_, SpanSet.ordered_claimAll _ ho _, ?_⟩
  · rw [hkept]
    refine List.filter_congr fun found _ => ?_
    exact decide_eq_decide.mpr (SpanSet.free_congr he found.span)
  · rw [spansOf, List.map_append]
    exact hclaimed.trans (he.append_right _)

namespace Grammar

/-- The occurrences kept by all phases of the classification, phase by phase. -/
def acceptedPlaces (grammar : Grammar) (text : List Char) : List (Occurrence Part) :=
  (grammar.structPlaces text).aliased ++ (grammar.structPlaces text).aliases ++
    (grammar.structPlaces text).bare

/-- Each phase keeps the occurrences that are free of all kept by the phases
before it, and in the end exactly the spans of all kept ones are claimed. -/
theorem structPlaces_phases (grammar : Grammar) (text : List Char) :
    let places := grammar.structPlaces text
    places.aliased = (grammar.aliasedStruct.scan text).filter
        (fun found => SpanSet.Free [] found.span) ∧
      places.aliases = (grammar.structAlias.scan text).filter
        (fun found => SpanSet.Free (spansOf places.aliased) found.span) ∧
      places.bare = (grammar.struct.scan text).filter
        (fun found => SpanSet.Free (spansOf (places.aliased ++ places.aliases)) found.span) ∧
      places.claimed.Ordered ∧
      places.claimed.spans.Perm (spansOf (grammar.acceptedPlaces text)) := by
  have hempty : SpanSet.empty.spans.Perm (spansOf ([] : List (Occurrence Part))) :=
    List.Perm.refl _
  obtain ⟨hk1, ho1, hp1⟩ :=
    SpanSet.claimAll_scan SpanSet.ordered_empty hempty grammar.aliasedStruct text
  obtain ⟨hk2, ho2, hp2⟩ := SpanSet.claimAll_scan ho1 hp1 grammar.structAlias text
  obtain ⟨hk3, ho3, hp3⟩ := SpanSet.claimAll_scan ho2 hp2 grammar.struct text
  exact ⟨hk1, hk2, hk3, ho3, hp3⟩

/-- An extraction has one declaration for every occurrence that is kept, and
the number it reports is the number of claimed spans. -/
theorem size_claimed_eq (grammar : Grammar) (text : List Char) :
    (grammar.structPlaces text).claimed.size =
      (grammar.declarations text).aliasedStructs.length +
        (grammar.declarations text).structAliases.length +
        (grammar.declarations text).structs.length := by
  rw [size_claimed_structPlaces]
  simp only [declarations, List.length_map]

/-- Under any grammar the struct-like declarations of a text exclude each
other. An occurrence is left out exactly if it is empty or shares a byte with
one kept earlier; all that is kept has bytes, and no two of them share one; and
the number of claimed spans, which the extraction reports, is the number of
declarations of the three kinds. -/
theorem structPlaces_exclusive (grammar : Grammar) (text : List Char) :
    let places := grammar.structPlaces text
    let header := grammar.declarations text
    (places.aliased = (grammar.aliasedStruct.scan text).filter
        (fun found => SpanSet.Free [] found.span) ∧
      places.aliases = (grammar.structAlias.scan text).filter
        (fun found => SpanSet.Free (spansOf places.aliased) found.span) ∧
      places.bare = (grammar.struct.scan text).filter
        (fun found => SpanSet.Free (spansOf (places.aliased ++ places.aliases)) found.span)) ∧
    (∀ found ∈ grammar.acceptedPlaces text, ∃ byte, found.span.Covers byte) ∧
    (grammar.acceptedPlaces text).Pairwise
      (fun left right => ¬∃ byte, left.span.Covers byte ∧ right.span.Covers byte) ∧
    header.aliasedStructs = places.aliased.map grammar.aliasedStructDecl ∧
    header.structAliases = places.aliases.map
      (fun found => ⟨found.leaf .tag, found.leaf .name⟩) ∧
    header.structs = places.bare.map grammar.structDecl ∧
    places.claimed.size = header.aliasedStructs.length + header.structAliases.length +
      header.structs.length ∧
    ∀ content : String, (grammar.events content).head? =
      some (.classified ((grammar.extract content).aliasedStructs.length +
        (grammar.extract content).structAliases.length +
        (grammar.extract content).structs.length)) := by
  obtain ⟨hk1, hk2, hk3, ho, hp⟩ := structPlaces_phases grammar text
  refine ⟨⟨hk1, hk2, hk3⟩, ?_, ?_, rfl, rfl, rfl, size_claimed_eq grammar text, ?_⟩
  · intro found hm
    have hclaimed := hp.mem_iff.mpr (List.mem_map_of_mem (f := Occurrence.span) hm)
    exact ⟨found.span.start, Nat.le_refl _, ho.inhabited _ hclaimed⟩
  · have hspans := ho.pairwise_not_covers
    rw [hp.pairwise_iff (fun hn ⟨byte, hleft, hright⟩ => hn ⟨byte, hright, hleft⟩)] at hspans
    exact List.pairwise_map.mp hspans
  · intro content
    have hsize := size_claimed_eq grammar (grammar.visibleText content.toList)
    rw [extract, ← hsize]
    rfl

end Grammar

end HeaderExports
