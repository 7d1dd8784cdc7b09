import HeaderExports.Proofs.Grammar.Nested
import HeaderExports.Proofs.Pattern.Places
import HeaderExports.Proofs.Structs.Exclusive

/-!
# Which struct-like declarations are left out

Under the grammar of a marker, words of the three patterns for structs overlap
in one way only: a type name for a struct stands among the members of a struct.
Then one of the two is left out. A struct with a type name of its own is kept,
and the type name among its members is not; of other structs the type name is
kept, and the struct around it is lost.
-/

namespace HeaderExports

open Text (Span byteLength byteLength_append spanBehind spanBehind_forward spanBehind_apart
  spanBehind_inside)

namespace Occurrence

variable {σ : Type}

/-- Two occurrences overlap if they share a byte. -/
def Overlaps (left right : Occurrence σ) : Prop :=
  ∃ byte, left.span.Covers byte ∧ right.span.Covers byte

instance (left right : Occurrence σ) : Decidable (left.Overlaps right) :=
  decidable_of_iff _ (Span.meets_iff left.span right.span)

/-- It does not matter which of two occurrences overlaps the other. -/
theorem overlaps_comm {left right : Occurrence σ} :
    left.Overlaps right ↔ right.Overlaps left :=
  exists_congr fun _ => and_comm

/-- An occurrence that stops before another one starts does not overlap it. -/
theorem not_overlaps_of_le {left right : Occurrence σ}
    (hl : left.span.stop ≤ right.span.start) : ¬left.Overlaps right := by
  rintro ⟨byte, hleft, hright⟩
  exact Nat.lt_irrefl byte (Nat.lt_of_lt_of_le hleft.2 (Nat.le_trans hl hright.1))

/-- An occurrence whose last byte lies in another one overlaps it. -/
theorem overlaps_of_stops_inside {inner outer : Occurrence σ}
    (hs : inner.span.start < inner.span.stop)
    (hstart : outer.span.start < inner.span.stop) (hstop : inner.span.stop ≤ outer.span.stop) :
    inner.Overlaps outer := by
  refine ⟨inner.span.stop - 1, ⟨?_, ?_⟩, ?_, ?_⟩ <;> omega

/-- The members in a body as they are written. -/
def members (found : Occurrence Part) : List Char := (found.part? .body).getD []

end Occurrence

namespace Grammar

open Pattern

variable {whole : List Char}

/-! ## What a scan for structs reports -/

/-- An occurrence in a text reports a struct with members. -/
def Enclosure.ReportedBy (outer : Enclosure) (whole : List Char) (found : Occurrence Part) :
    Prop :=
  ∃ front behind, whole = front ++ (outer.text ++ behind) ∧
    found.span = spanBehind front outer.text ∧ found.members = outer.members.chars

/-- A scan for structs reports structs with members. -/
theorem exists_enclosure_of_struct {found : Occurrence Part}
    (hm : found ∈ structPattern.scan whole) :
    ∃ outer : Enclosure, outer.ReportedBy whole found := by
  obtain ⟨front, form, behind, he, rfl⟩ := exists_report_of_mem_scan
    (@writes_braced inStructBody "struct ") (BracedForm.text_ne_nil (by decide)) hm
  rw [← form.text_enclosure] at he
  exact ⟨form.enclosure, front, behind, he, by rw [form.text_enclosure]; rfl, rfl⟩

/-- A scan for structs with a type name reports structs with members. -/
theorem exists_enclosure_of_aliasedStruct {found : Occurrence Part}
    (hm : found ∈ aliasedStructPattern.scan whole) :
    ∃ outer : Enclosure, outer.ReportedBy whole found := by
  obtain ⟨front, form, behind, he, rfl⟩ := exists_report_of_mem_scan
    writes_aliasedStructPattern AliasedStructForm.text_ne_nil hm
  have hmembers : (form.parts.reverse.find? (·.1 = .body)).map (·.2) = some form.members.chars := by
    unfold AliasedStructForm.parts
    cases form.tag <;> rfl
  rw [← form.text_enclosure] at he
  refine ⟨form.enclosure, front, behind, he, by rw [form.text_enclosure]; rfl, ?_⟩
  rw [Occurrence.members, Occurrence.part?, report, hmembers]
  rfl

/-- A scan of either kind reports structs with members. -/
theorem exists_enclosure {found : Occurrence Part}
    (hm : found ∈ aliasedStructPattern.scan whole ++ structPattern.scan whole) :
    ∃ outer : Enclosure, outer.ReportedBy whole found :=
  (List.mem_append.mp hm).elim exists_enclosure_of_aliasedStruct exists_enclosure_of_struct

/-- A struct with members covers a byte. -/
theorem Enclosure.ReportedBy.forward {outer : Enclosure} {found : Occurrence Part}
    (ho : outer.ReportedBy whole found) : found.span.start < found.span.stop := by
  obtain ⟨front, behind, -, hspan, -⟩ := ho
  rw [hspan]
  refine spanBehind_forward front ?_
  rw [Enclosure.text]
  exact List.append_ne_nil_of_right_ne_nil _ (List.cons_ne_nil _ _)

/-- What a scan reports for a type name of a struct. -/
theorem exists_alias_report {found : Occurrence Part}
    (hm : found ∈ structAliasPattern.scan whole) :
    ∃ front form behind, whole = front ++ (AliasForm.text "struct" form ++ behind) ∧
      found = report (AliasForm.text "struct") AliasForm.parts front form :=
  exists_report_of_mem_scan (writes_aliasPattern "struct") (AliasForm.text_ne_nil "struct") hm

/-- A type name for a struct covers a byte. -/
theorem forward_of_alias {found : Occurrence Part} (hm : found ∈ structAliasPattern.scan whole) :
    found.span.start < found.span.stop := by
  obtain ⟨front, form, behind, -, rfl⟩ := exists_alias_report hm
  exact spanBehind_forward front (form.text_ne_nil "struct")

/-! ## Overlaps -/

/-- What stands among the members of a struct covers bytes inside of it. -/
theorem Enclosure.spanBehind_members (outer : Enclosure) (front : List Char)
    {u w v : List Char} (hm : outer.members.chars = u ++ (w ++ v)) :
    (spanBehind front outer.text).start <
        (spanBehind (front ++ (outer.head ++ '\x7b' :: u)) w).start ∧
      (spanBehind (front ++ (outer.head ++ '\x7b' :: u)) w).stop <
        (spanBehind front outer.text).stop := by
  rw [outer.text_of_members hm]
  exact spanBehind_inside front w
    (List.append_ne_nil_of_right_ne_nil _ (List.cons_ne_nil _ _))
    (List.append_ne_nil_of_right_ne_nil _ (List.cons_ne_nil _ _))

/-- A type name for a struct that overlaps a struct with members lies inside,
and it is read among the members. -/
theorem inside_of_overlaps {outer : Enclosure} {inner found : Occurrence Part}
    (hm : inner ∈ structAliasPattern.scan whole) (ho : outer.ReportedBy whole found)
    (h : inner.Overlaps found) :
    found.span.start < inner.span.start ∧ inner.span.stop < found.span.stop ∧
      ∃ member ∈ structAliasPattern.scan found.members, member.marks = inner.marks := by
  obtain ⟨f, form, r, hf, rfl⟩ := exists_alias_report hm
  obtain ⟨a, b, ha, hspan, hmembers⟩ := ho
  rcases outer.apart_or_inside form (ha.symm.trans hf) with ⟨s, rfl⟩ | ⟨s, rfl⟩ | ⟨u, v, huv, rfl⟩
  · refine absurd h (Occurrence.not_overlaps_of_le ?_)
    rw [hspan]
    exact spanBehind_apart f _ s _
  · refine absurd (Occurrence.overlaps_comm.mp h) (Occurrence.not_overlaps_of_le ?_)
    rw [hspan]
    exact spanBehind_apart a _ s _
  · have hinside := outer.spanBehind_members a huv
    rw [← hspan] at hinside
    obtain ⟨front, form', -, hmem, hparts⟩ :=
      pinned_structAliasPattern.exists_report (writes_aliasPattern "struct") (hmembers.trans huv)
    exact ⟨hinside.1, hinside.2, _, hmem, hparts⟩

/-- A struct with members that hold a type name for a struct overlaps one that
is reported. -/
theorem exists_overlap_of_members {outer : Enclosure} {found : Occurrence Part}
    (ho : outer.ReportedBy whole found) (hne : structAliasPattern.scan found.members ≠ []) :
    ∃ inner ∈ structAliasPattern.scan whole, inner.Overlaps found := by
  obtain ⟨member, hmember⟩ := List.exists_mem_of_ne_nil _ hne
  obtain ⟨u, form, v, huv, -⟩ := exists_alias_report hmember
  obtain ⟨a, b, ha, hspan, hmembers⟩ := ho
  have huv : outer.members.chars = u ++ (form.text "struct" ++ v) := hmembers.symm.trans huv
  have hwhole : whole = (a ++ (outer.head ++ '\x7b' :: u)) ++ (form.text "struct" ++
      ((v ++ '\x7d' :: (outer.label ++ [';'])) ++ b)) := by
    rw [ha, outer.text_of_members huv]
    simp only [List.append_assoc]
  obtain ⟨front, form', he, hmem, -⟩ :=
    pinned_structAliasPattern.exists_report (writes_aliasPattern "struct") hwhole
  have hinside := outer.spanBehind_members a huv
  rw [← hspan] at hinside
  -- what is reported stops where the type name among the members does
  have hstop : (spanBehind front (form'.text "struct")).stop =
      (spanBehind (a ++ (outer.head ++ '\x7b' :: u)) (form.text "struct")).stop := by
    have hbytes := congrArg byteLength (he.symm.trans hwhole)
    simp only [byteLength_append] at hbytes
    simp only [spanBehind, byteLength_append]
    omega
  have hforward := spanBehind_forward (a ++ (outer.head ++ '\x7b' :: u)) (form.text_ne_nil "struct")
  refine ⟨_, hmem, Occurrence.overlaps_of_stops_inside (forward_of_alias hmem) ?_ ?_⟩
  · rw [report, hstop]
    omega
  · rw [report, hstop]
    omega

/-- The members of a struct hold no type name for a struct exactly if none that
is reported overlaps it. -/
theorem scan_members_eq_nil_iff {found : Occurrence Part}
    (hm : found ∈ aliasedStructPattern.scan whole ++ structPattern.scan whole) :
    structAliasPattern.scan found.members = [] ↔
      ∀ inner ∈ structAliasPattern.scan whole, ¬inner.Overlaps found := by
  obtain ⟨outer, ho⟩ := exists_enclosure hm
  constructor
  · intro hnil inner hinner h
    obtain ⟨-, -, member, hmember, -⟩ := inside_of_overlaps hinner ho h
    rw [hnil] at hmember
    cases hmember
  · intro hnone
    by_contra hne
    obtain ⟨inner, hinner, h⟩ := exists_overlap_of_members ho hne
    exact hnone inner hinner h

/-- A struct with a type name and one without do not overlap. -/
theorem not_overlaps_struct {left right : Occurrence Part}
    (hl : left ∈ aliasedStructPattern.scan whole) (hr : right ∈ structPattern.scan whole) :
    ¬left.Overlaps right := by
  obtain ⟨a, form, b, ha, rfl⟩ := exists_report_of_mem_scan writes_aliasedStructPattern
    AliasedStructForm.text_ne_nil hl
  obtain ⟨a', form', b', ha', rfl⟩ := exists_report_of_mem_scan
    (@writes_braced inStructBody "struct ") (BracedForm.text_ne_nil (by decide)) hr
  rcases form.apart_braced form' (ha.symm.trans ha') with ⟨s, rfl⟩ | ⟨s, rfl⟩
  · exact Occurrence.not_overlaps_of_le (spanBehind_apart a _ s _)
  · rw [Occurrence.overlaps_comm]
    exact Occurrence.not_overlaps_of_le (spanBehind_apart a' _ s _)

/-- A type name for a struct does not overlap both a struct with a type name
and one without. -/
theorem not_overlaps_both {inner left right : Occurrence Part}
    (hm : inner ∈ structAliasPattern.scan whole) (hl : left ∈ aliasedStructPattern.scan whole)
    (hr : right ∈ structPattern.scan whole) (hleft : inner.Overlaps left) :
    ¬inner.Overlaps right := by
  intro hright
  obtain ⟨outer, ho⟩ := exists_enclosure_of_aliasedStruct hl
  obtain ⟨outer', ho'⟩ := exists_enclosure_of_struct hr
  have hinside := inside_of_overlaps hm ho hleft
  have hinside' := inside_of_overlaps hm ho' hright
  have hforward := forward_of_alias hm
  refine not_overlaps_struct hl hr ⟨inner.span.start, ⟨?_, ?_⟩, ?_, ?_⟩ <;> omega

/-! ## What the classification keeps -/

/-- An occurrence with a byte is free of others if it overlaps none of them. -/
theorem free_iff_not_overlaps {earlier : List (Occurrence Part)} {found : Occurrence Part}
    (hs : found.span.start < found.span.stop) :
    SpanSet.Free (spansOf earlier) found.span ↔ ∀ other ∈ earlier, ¬other.Overlaps found := by
  have hbyte : ∃ byte, found.span.Covers byte := ⟨found.span.start, Nat.le_refl _, hs⟩
  rw [SpanSet.Free, spansOf, List.forall_mem_map]
  exact and_iff_right hbyte

/-- Words of two different patterns for structs share no byte of a text. -/
def StructsApart (grammar : Grammar) (text : List Char) : Prop :=
  (∀ left ∈ grammar.aliasedStruct.scan text, ∀ right ∈ grammar.struct.scan text,
      ¬left.Overlaps right) ∧
    ∀ found ∈ grammar.aliasedStruct.scan text ++ grammar.struct.scan text,
      ∀ inner ∈ grammar.structAlias.scan text, ¬inner.Overlaps found

instance (grammar : Grammar) (text : List Char) : Decidable (grammar.StructsApart text) :=
  inferInstanceAs (Decidable (_ ∧ _))

/-- The classification leaves out no word that a scan for structs reports. -/
def KeepsStructs (grammar : Grammar) (text : List Char) : Prop :=
  (grammar.structPlaces text).aliased = grammar.aliasedStruct.scan text ∧
    (grammar.structPlaces text).aliases = grammar.structAlias.scan text ∧
    (grammar.structPlaces text).bare = grammar.struct.scan text

/-- No struct of a text has a type name for a struct among its members. -/
def PlainMembers (grammar : Grammar) (text : List Char) : Prop :=
  ∀ found ∈ grammar.aliasedStruct.scan text ++ grammar.struct.scan text,
    grammar.structAlias.scan found.members = []

section Marker

variable (marker : ExportMarker) (keepsComments : Bool) (text : List Char)

/-- Under the grammar of a marker all structs with a type name are kept, of the
type names for structs those that overlap none of them, and of the other structs
those without a type name for a struct among their members. -/
theorem structPlaces_kept :
    let grammar := withMarker marker keepsComments
    let places := grammar.structPlaces text
    places.aliased = grammar.aliasedStruct.scan text ∧
      places.aliases = (grammar.structAlias.scan text).filter
        (fun inner => ∀ outer ∈ grammar.aliasedStruct.scan text, ¬inner.Overlaps outer) ∧
      places.bare = (grammar.struct.scan text).filter
        (fun found => (grammar.structAlias.scan found.members).isEmpty) := by
  intro grammar places
  obtain ⟨haliased, haliases, hbare, -⟩ := structPlaces_phases grammar text
  have hall : places.aliased = grammar.aliasedStruct.scan text := by
    refine haliased.trans (List.filter_eq_self.mpr fun found hm => decide_eq_true ?_)
    obtain ⟨outer, ho⟩ := exists_enclosure_of_aliasedStruct hm
    exact (@free_iff_not_overlaps [] found ho.forward).mpr (List.forall_mem_nil _)
  have hfree : places.aliases = (grammar.structAlias.scan text).filter
      (fun inner => ∀ outer ∈ grammar.aliasedStruct.scan text, ¬inner.Overlaps outer) := by
    refine haliases.trans (List.filter_congr fun inner hm => decide_eq_decide.mpr ?_)
    rw [free_iff_not_overlaps (forward_of_alias hm), ← hall]
    exact forall₂_congr fun outer _ => not_congr Occurrence.overlaps_comm
  refine ⟨hall, hfree, hbare.trans (List.filter_congr fun found hm => ?_)⟩
  obtain ⟨outer, ho⟩ := exists_enclosure_of_struct hm
  rw [Bool.eq_iff_iff, decide_eq_true_eq, List.isEmpty_iff, free_iff_not_overlaps ho.forward]
  refine Iff.trans ?_ (scan_members_eq_nil_iff (List.mem_append_right _ hm)).symm
  constructor
  · intro hnone inner hinner h
    -- a type name inside of this struct is inside of no other one, so it was kept
    have hkept : inner ∈ places.aliases := by
      rw [hfree, List.mem_filter, decide_eq_true_eq]
      exact ⟨hinner, fun left hl hleft => not_overlaps_both hinner hl hm hleft h⟩
    exact hnone inner (List.mem_append_right _ hkept) h
  · intro hnone other hother
    rcases List.mem_append.mp hother with h | h
    · exact not_overlaps_struct (hall ▸ h) hm
    · change other ∈ places.aliases at h
      rw [hfree] at h
      exact hnone other (List.mem_of_mem_filter h)

/-- Words of two different patterns share no byte exactly if no struct has a
type name for a struct among its members. -/
theorem structsApart_iff :
    (withMarker marker keepsComments).StructsApart text ↔
      (withMarker marker keepsComments).PlainMembers text := by
  have hstructs : ∀ left ∈ aliasedStructPattern.scan text, ∀ right ∈ structPattern.scan text,
      ¬left.Overlaps right := fun left hl right hr => not_overlaps_struct hl hr
  rw [StructsApart, PlainMembers]
  exact (and_iff_right hstructs).trans
    (forall₂_congr fun found hm => (scan_members_eq_nil_iff hm).symm)

/-- Nothing is left out exactly if no struct has a type name for a struct among
its members. -/
theorem keepsStructs_iff :
    (withMarker marker keepsComments).KeepsStructs text ↔
      (withMarker marker keepsComments).PlainMembers text := by
  obtain ⟨haliased, haliases, hbare⟩ := structPlaces_kept marker keepsComments text
  rw [KeepsStructs, PlainMembers, haliased, haliases, hbare, List.filter_eq_self,
    List.filter_eq_self, List.forall_mem_append]
  simp only [true_and, decide_eq_true_eq, List.isEmpty_iff]
  refine and_congr_left fun _ => ?_
  have hinner (found : Occurrence Part) (hm : found ∈ aliasedStructPattern.scan text) :
      structAliasPattern.scan found.members = [] ↔
        ∀ inner ∈ structAliasPattern.scan text, ¬inner.Overlaps found :=
    scan_members_eq_nil_iff (List.mem_append_left _ hm)
  constructor
  · intro hfree found hm
    exact (hinner found hm).mpr fun inner hi => hfree inner hi found hm
  · intro hplain inner hi found hm
    exact (hinner found hm).mp (hplain found hm) inner hi

/-- Nothing is left out exactly if there are as many declarations of each kind
as a scan reports words. -/
theorem keepsStructs_iff_length :
    let grammar := withMarker marker keepsComments
    let header := grammar.declarations text
    grammar.KeepsStructs text ↔
      header.aliasedStructs.length = (grammar.aliasedStruct.scan text).length ∧
        header.structAliases.length = (grammar.structAlias.scan text).length ∧
        header.structs.length = (grammar.struct.scan text).length := by
  intro grammar header
  obtain ⟨haliased, haliases, hbare⟩ := structPlaces_kept marker keepsComments text
  simp only [header, declarations, List.length_map]
  constructor
  · rintro ⟨h1, h2, h3⟩
    exact ⟨congrArg List.length h1, congrArg List.length h2, congrArg List.length h3⟩
  · rintro ⟨-, h2, h3⟩
    refine ⟨haliased, ?_, ?_⟩
    · rw [haliases] at h2 ⊢
      exact List.filter_sublist.eq_of_length h2
    · rw [hbare] at h3 ⊢
      exact List.filter_sublist.eq_of_length h3

end Marker

/-- Words of two patterns for structs overlap in one way only: a type name for a
struct lies inside of a struct with members and is read among the members.
Structs with a type name are all kept, type names are kept outside of them, and
the other structs are kept if no type name for a struct is among their members.
So if there is no such member, and only then, do the words of different patterns
share no byte, is nothing left out, and are there as many declarations as
words. -/
theorem structPlaces_withMarker (marker : ExportMarker) (keepsComments : Bool)
    (text : List Char) :
    let grammar := withMarker marker keepsComments
    let places := grammar.structPlaces text
    let header := grammar.declarations text
    let aliasedStructs := grammar.aliasedStruct.scan text
    let aliases := grammar.structAlias.scan text
    let structs := grammar.struct.scan text
    ((∀ left ∈ aliasedStructs, ∀ right ∈ structs, ¬left.Overlaps right) ∧
      ∀ inner ∈ aliases, ∀ outer ∈ aliasedStructs ++ structs, inner.Overlaps outer →
        outer.span.start < inner.span.start ∧ inner.span.stop < outer.span.stop ∧
          ∃ member ∈ grammar.structAlias.scan outer.members, member.marks = inner.marks) ∧
    (places.aliased = aliasedStructs ∧
      places.aliases = aliases.filter
        (fun inner => ∀ outer ∈ aliasedStructs, ¬inner.Overlaps outer) ∧
      places.bare = structs.filter
        (fun found => (grammar.structAlias.scan found.members).isEmpty)) ∧
    (grammar.StructsApart text ↔ grammar.PlainMembers text) ∧
    (grammar.KeepsStructs text ↔ grammar.PlainMembers text) ∧
    (header.aliasedStructs.length = aliasedStructs.length ∧
        header.structAliases.length = aliases.length ∧ header.structs.length = structs.length ↔
      grammar.PlainMembers text) := by
  have hkeeps := keepsStructs_iff marker keepsComments text
  refine ⟨⟨fun left hl right hr => not_overlaps_struct hl hr, fun inner hinner outer hm h => ?_⟩,
    structPlaces_kept marker keepsComments text, structsApart_iff marker keepsComments text,
    hkeeps, (keepsStructs_iff_length marker keepsComments text).symm.trans hkeeps⟩
  obtain ⟨enclosure, ho⟩ := exists_enclosure hm
  exact inside_of_overlaps hinner ho h

/-- A struct whose first member is a type name for it: the type name overlaps
the struct and is kept, and the struct is lost. So words of different patterns
do share bytes, and something is left out. -/
theorem struct_lost_around_alias :
    let text := "struct Node \x7b typedef struct Node Self; int value; \x7d;".toList
    ((standard.struct.scan text).map (·.span) = [⟨0, 53⟩] ∧
      (standard.structAlias.scan text).map (·.span) = [⟨14, 39⟩] ∧
      (standard.declarations text).structs = [] ∧
      (standard.declarations text).structAliases = [⟨"Node", "Self"⟩]) ∧
    (¬∀ text, standard.StructsApart text) ∧ ¬∀ text, standard.KeepsStructs text := by
  intro text
  have hover : ¬standard.StructsApart text := by decide +kernel
  have hlost : ¬standard.KeepsStructs text := by
    intro h
    have hplain := (keepsStructs_iff .standard false text).mp h
    exact hover ((structsApart_iff .standard false text).mpr hplain)
  exact ⟨by decide +kernel, fun h => hover (h text), fun h => hlost (h text)⟩

end Grammar

end HeaderExports
