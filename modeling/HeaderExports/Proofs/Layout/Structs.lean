import HeaderExports.Proofs.Layout.Fields
import HeaderExports.Proofs.Pattern.Lines
import HeaderExports.Proofs.Structs.Nested

/-!
# Structs in any layout

A struct is read with its fields, with a type name or without one, and as one
declaration only. Among its fields stands no type name for a struct, since
between two semicolons there is one name behind one type at most.
-/

namespace HeaderExports

open Grammar Pattern
open Text

variable {comments : Bool}

/-! ## No type names among fields -/

/-- A type name for a tag is its front with a field behind it. -/
theorem Grammar.AliasForm.exists_field (keyword : String) (form : AliasForm) :
    ∃ field : FieldForm, field.qualified = false ∧
      form.head keyword = (aliasFront keyword ++ [' ']) ++ field.head := by
  have hname : ∀ c ∈ form.name.chars, inFieldName c = true := fun c hc => by
    simp [inFieldName, form.name.inside_of_mem c hc]
  refine ⟨⟨false, ⟨form.tag, 0⟩, oneSpace, 0,
    ⟨⟨form.name.chars, hname⟩, form.name.nonempty⟩⟩, rfl, ?_⟩
  unfold AliasForm.head
  generalize aliasFront keyword = front
  simp [FieldForm.head, FieldForm.nameChars, StarredName.chars, qualifierText, oneSpace]

/-- A field behind blanks is no type name for a struct. -/
theorem field_ne_alias {gap front : List Char} (hg : ∀ c ∈ gap, isBlank c = true)
    (field : FieldForm) (form : AliasForm) :
    gap ++ field.head ≠ front ++ form.head "struct" := by
  intro he
  obtain ⟨other, hbare, hother⟩ := form.exists_field "struct"
  rw [hother, ← List.append_assoc] at he
  obtain ⟨htypes, -⟩ := FieldForm.head_inj he
  have hspace (type : StarredName) : ' ' ∉ type.chars := type.not_mem (by decide) (by decide)
  have hfront : front ++ (aliasFront "struct" ++ [' ']) ++
      (qualifierText other.qualified ++ other.type.chars) =
      (front ++ aliasFront "struct") ++ ' ' :: other.type.chars := by
    rw [hbare]
    simp only [qualifierText, List.append_assoc, List.singleton_append, Bool.false_eq_true,
      if_false, List.nil_append]
  rw [hfront] at htypes
  cases hq : field.qualified with
  | false =>
    -- the keyword would stand among the blanks
    rw [hq] at htypes
    obtain ⟨s, hs, -⟩ := append_behind (hspace field.type) htypes
    have hkeyword : 't' ∈ aliasFront "struct" := by decide
    have hblank := hg 't' (hs ▸ List.mem_append_left _ (List.mem_append_right _ hkeyword))
    exact absurd hblank (by decide)
  | true =>
    -- the keyword would end with the qualifier
    have hqualifier : qualifierText true = "c".toList ++ ("onst".toList ++ [' ']) := by decide
    have hqualified : gap ++ (qualifierText true ++ field.type.chars) =
        (gap ++ "c".toList ++ "onst".toList) ++ ' ' :: field.type.chars := by
      rw [hqualifier]
      simp only [List.append_assoc, List.singleton_append]
    rw [hq, hqualified] at htypes
    obtain ⟨hwords, -⟩ := last_inj (hspace field.type) (hspace other.type) htypes
    have hstruct : aliasFront "struct" = "typedef st".toList ++ "ruct".toList := by decide
    rw [hstruct, ← List.append_assoc] at hwords
    exact absurd (List.append_inj' hwords rfl).2 (by decide)

/-- No type name for a struct stands among fields. -/
theorem scan_structAlias_fields {gap : List Char} (hg : ∀ c ∈ gap, isBlank c = true)
    (fields : List (LaidField comments)) :
    structAliasPattern.scan
      (gap ++ written Layout.shown (fields.flatMap LaidField.pieces)) = [] := by
  refine scan_eq_nil fun word marks hs => ?_
  obtain ⟨form, rfl, -⟩ := (writes_aliasPattern "struct").exists_of_spells hs
  rintro ⟨front, behind, he⟩
  have hform : ';' ∉ form.head "struct" :=
    form.not_mem_head (by decide) (by decide) (by decide)
  rw [form.text_eq_head, ← List.append_assoc, List.append_assoc _ [';'],
    List.singleton_append] at he
  induction fields generalizing gap front with
  | nil =>
    have hsemicolon : ';' ∈ gap := by
      rw [List.flatMap_nil, written, List.flatMap_nil, List.append_nil] at he
      exact he ▸ List.mem_append_right _ List.mem_cons_self
    exact absurd (hg ';' hsemicolon) (by decide)
  | cons field fields ih =>
    have hgap : ';' ∉ gap ++ (field.form field.seenGap).head :=
      List.not_mem_append (fun h => absurd (hg ';' h) (by decide))
        (field.form field.seenGap).semicolon_not_mem_head
    have hbody : gap ++ written Layout.shown ((field :: fields).flatMap LaidField.pieces) =
        (gap ++ (field.form field.seenGap).head) ++ ';' :: (field.behind.shown ++
          written Layout.shown (fields.flatMap LaidField.pieces)) := by
      rw [List.flatMap_cons, written_append, field.written_shown, FieldForm.text_eq]
      simp only [List.append_assoc, List.cons_append, List.nil_append]
    rw [hbody] at he
    rcases append_cons_split he with ⟨t, ht, -⟩ | ⟨t, ht, hb⟩ | ⟨hsame, -⟩
    · exact hgap (ht ▸ List.mem_append_right _ List.mem_cons_self)
    · -- the type name ends behind this field, so that it begins there
      obtain ⟨s, -, hs⟩ := append_behind hform ht
      refine ih field.behind.isBlank_of_mem_shown s ?_
      rw [hb, hs]
    · exact field_ne_alias hg _ form hsame.symm

/-! ## Texts that are one struct -/

/-- What a scan finds in a text overlaps the whole of it. -/
theorem Pattern.overlaps_whole {q : Pattern Part} {α : Type} {text : α → List Char}
    {parts : α → Marks Part} (hw : Writes q text parts) (hn : ∀ form, text form ≠ [])
    {whole : List Char} {found : Occurrence Part} (hm : found ∈ q.scan whole) (marks : Marks Part) :
    found.Overlaps ⟨⟨0, byteLength whole⟩, marks⟩ := by
  obtain ⟨front, form, behind, he, rfl⟩ := exists_report_of_mem_scan hw hn hm
  have hforward := spanBehind_forward front (hn form)
  have hlength : byteLength whole =
      byteLength front + (byteLength (text form) + byteLength behind) := by
    rw [he, byteLength_append, byteLength_append]
  refine Occurrence.overlaps_of_stops_inside hforward (Nat.zero_lt_of_lt hforward) ?_
  change byteLength front + byteLength (text form) ≤ byteLength whole
  omega

section Places

variable {marker : ExportMarker} {keepsComments : Bool}

/-- A struct without a type name among whose members no type name stands is the
only struct-like declaration of its text. -/
theorem structPlaces_struct (form : BracedForm inStructBody)
    (hplain : structAliasPattern.scan form.members.chars = []) :
    let places := (withMarker marker keepsComments).structPlaces (form.text "struct ")
    places.aliased = [] ∧ places.aliases = [] ∧
      places.bare = [⟨⟨0, byteLength (form.text "struct ")⟩, form.parts⟩] := by
  intro places
  obtain ⟨haliased, haliases, hbare⟩ :=
    structPlaces_kept marker keepsComments (form.text "struct ")
  have hwrites := @writes_braced inStructBody "struct "
  have hscan : structPattern.scan (form.text "struct ") = [⟨⟨0, _⟩, form.parts⟩] :=
    pinned_structPattern.determined.scan_of_spells (hwrites.spells form)
  have hmem := hscan ▸ List.mem_singleton_self _
  have hnone : aliasedStructPattern.scan (form.text "struct ") = [] :=
    List.eq_nil_iff_forall_not_mem.mpr fun found hm => not_overlaps_struct hm hmem
      (overlaps_whole writes_aliasedStructPattern AliasedStructForm.text_ne_nil hm form.parts)
  have hinner : structAliasPattern.scan (form.text "struct ") = [] := by
    refine List.eq_nil_iff_forall_not_mem.mpr fun inner hm => ?_
    have hapart := (scan_members_eq_nil_iff (List.mem_append_right _ hmem)).mp hplain inner hm
    exact hapart (overlaps_whole (writes_aliasPattern "struct") (AliasForm.text_ne_nil "struct")
      hm form.parts)
  refine ⟨haliased.trans hnone, haliases.trans ?_, hbare.trans ?_⟩
  · change (structAliasPattern.scan (form.text "struct ")).filter _ = []
    rw [hinner, List.filter_nil]
  · change (structPattern.scan (form.text "struct ")).filter _ = _
    rw [hscan]
    refine List.filter_eq_self.mpr fun found hm => ?_
    obtain rfl := List.mem_singleton.mp hm
    exact List.isEmpty_iff.mpr hplain

/-- A struct with a type name is the only struct-like declaration of its text. -/
theorem structPlaces_aliasedStruct (form : AliasedStructForm) :
    let places := (withMarker marker keepsComments).structPlaces form.text
    places.aliased = [⟨⟨0, byteLength form.text⟩, form.parts⟩] ∧ places.aliases = [] ∧
      places.bare = [] := by
  intro places
  obtain ⟨haliased, haliases, hbare⟩ := structPlaces_kept marker keepsComments form.text
  have hscan : aliasedStructPattern.scan form.text = [⟨⟨0, _⟩, form.parts⟩] :=
    determined_aliasedStructPattern.scan_of_spells (writes_aliasedStructPattern.spells form)
  have hmem := hscan ▸ List.mem_singleton_self _
  have hnone : structPattern.scan form.text = [] :=
    List.eq_nil_iff_forall_not_mem.mpr fun found hm => not_overlaps_struct hmem hm
      (Occurrence.overlaps_comm.mp (overlaps_whole (@writes_braced inStructBody "struct ")
        (BracedForm.text_ne_nil (by decide)) hm form.parts))
  refine ⟨haliased.trans hscan, haliases.trans ?_, hbare.trans ?_⟩
  · refine List.filter_eq_nil_iff.mpr fun inner hm h => ?_
    have hapart := of_decide_eq_true h _ hmem
    exact hapart (overlaps_whole (writes_aliasPattern "struct") (AliasForm.text_ne_nil "struct")
      hm form.parts)
  · change (structPattern.scan form.text).filter _ = []
    rw [hnone, List.filter_nil]

end Places

/-! ## Structs with fields of any layout -/

/-- A tag with fields of any layout. -/
structure LaidStruct (comments : Bool) where
  /-- The tag. -/
  tag : Name
  /-- The fields with what stands around them. -/
  fields : LaidFields comments

namespace LaidStruct

/-- The struct without a type name. -/
def text (form : LaidStruct comments) : List Char :=
  "struct ".toList ++ (form.tag.chars ++ (" \x7b".toList ++
    (form.fields.body Layout.text ++ "\x7d;".toList)))

/-- The struct with a type name. -/
def aliasedText (form : LaidStruct comments) (name : Name) : List Char :=
  "typedef struct ".toList ++ (form.tag.chars ++ (" \x7b".toList ++
    (form.fields.body Layout.text ++ ("\x7d ".toList ++ (name.chars ++ ";".toList)))))

/-- The struct that is declared without a type name. -/
def leaves (form : LaidStruct comments) : StructDecl :=
  ⟨String.ofList form.tag.chars, form.fields.leaves⟩

/-- The struct that is declared with a type name. -/
def aliasedLeaves (form : LaidStruct comments) (name : Name) : AliasedStruct :=
  ⟨String.ofList form.tag.chars, String.ofList name.chars, form.fields.leaves⟩

/-- What is seen of the body. -/
def members (form : LaidStruct comments) (hb : form.fields.body Layout.text ≠ []) :
    Token inStructBody :=
  ⟨⟨form.fields.body Layout.shown, form.fields.inStructBody_of_mem_body⟩,
    LaidText.shown_ne_nil hb⟩

/-- What is seen of the struct without a type name. -/
def shown (form : LaidStruct comments) (hb : form.fields.body Layout.text ≠ []) :
    BracedForm inStructBody where
  name := form.tag
  gap := oneSpace.toStretch
  members := form.members hb

/-- What is seen of the struct with a type name. -/
def aliasedShown (form : LaidStruct comments) (name : Name)
    (hb : form.fields.body Layout.text ≠ []) : AliasedStructForm where
  tag := some (oneSpace, form.tag)
  gap := oneSpace.toStretch
  members := form.members hb
  behind := oneSpace.toStretch
  name := name

variable {marker : ExportMarker} {keepsComments : Bool}

/-- A struct without a type name is seen with what is seen of its body. -/
theorem visibleText_text (form : LaidStruct (!keepsComments))
    (hb : form.fields.body Layout.text ≠ []) :
    (withMarker marker keepsComments).visibleText form.text = (form.shown hb).text "struct " := by
  unfold text
  rw [visibleText_append_of_all (by decide), visibleText_append_of_inert form.tag.isInert_of_mem,
    visibleText_append_of_all (by decide), LaidFields.body, LaidText.visibleText_append,
    visibleText_of_inert (List.all_eq_true.mp (by decide))]
  rfl

/-- A struct with a type name is seen with what is seen of its body. -/
theorem visibleText_aliasedText (form : LaidStruct (!keepsComments)) (name : Name)
    (hb : form.fields.body Layout.text ≠ []) :
    (withMarker marker keepsComments).visibleText (form.aliasedText name) =
      (form.aliasedShown name hb).text := by
  have hend : ∀ c ∈ name.chars ++ ";".toList, isInert c = true :=
    List.forall_mem_append.mpr ⟨name.isInert_of_mem, List.all_eq_true.mp (by decide)⟩
  unfold aliasedText
  rw [visibleText_append_of_all (by decide), visibleText_append_of_inert form.tag.isInert_of_mem,
    visibleText_append_of_all (by decide), LaidFields.body, LaidText.visibleText_append,
    visibleText_append_of_all (by decide), visibleText_of_inert hend]
  rfl

/-- A struct without a type name is read as nothing else. -/
theorem declarations_shown (form : LaidStruct comments) (hb : form.fields.body Layout.text ≠ []) :
    let header := (withMarker marker keepsComments).declarations ((form.shown hb).text "struct ")
    header.structs = [form.leaves] ∧ header.structAliases = [] ∧ header.aliasedStructs = [] := by
  intro header
  have hplain : structAliasPattern.scan (form.members hb).chars = [] :=
    scan_structAlias_fields form.fields.lead.isBlank_of_mem_shown form.fields.fields
  obtain ⟨haliased, haliases, hbare⟩ :=
    @structPlaces_struct marker keepsComments (form.shown hb) hplain
  have hstruct : (withMarker marker keepsComments).structDecl
      ⟨⟨0, byteLength ((form.shown hb).text "struct ")⟩, (form.shown hb).parts⟩ = form.leaves := by
    change (⟨String.ofList (oneLine form.tag.chars), (withMarker marker keepsComments).fields
      (oneLine (form.fields.body Layout.shown))⟩ : StructDecl) = _
    rw [oneLine_name, LaidFields.fields_body, leaves]
  refine ⟨?_, ?_, ?_⟩
  · exact (congrArg (List.map _) hbare).trans (congrArg (fun struct => [struct]) hstruct)
  · exact congrArg (List.map _) haliases
  · exact congrArg (List.map _) haliased

/-- A struct with a type name is read as nothing else. -/
theorem declarations_aliasedShown (form : LaidStruct comments) (name : Name)
    (hb : form.fields.body Layout.text ≠ []) :
    let header := (withMarker marker keepsComments).declarations (form.aliasedShown name hb).text
    header.aliasedStructs = [form.aliasedLeaves name] ∧ header.structs = [] ∧
      header.structAliases = [] := by
  intro header
  obtain ⟨haliased, haliases, hbare⟩ :=
    @structPlaces_aliasedStruct marker keepsComments (form.aliasedShown name hb)
  have hstruct : (withMarker marker keepsComments).aliasedStructDecl
      ⟨⟨0, byteLength (form.aliasedShown name hb).text⟩, (form.aliasedShown name hb).parts⟩ =
        form.aliasedLeaves name := by
    change (⟨String.ofList (oneLine form.tag.chars), String.ofList (oneLine name.chars),
      (withMarker marker keepsComments).fields (oneLine (form.fields.body Layout.shown))⟩ :
        AliasedStruct) = _
    rw [oneLine_name, oneLine_name, LaidFields.fields_body, aliasedLeaves]
  refine ⟨?_, ?_, ?_⟩
  · exact (congrArg (List.map _) haliased).trans (congrArg (fun struct => [struct]) hstruct)
  · exact congrArg (List.map _) hbare
  · exact congrArg (List.map _) haliases

/-- A struct whose body is not empty is read as one struct-like declaration with
its supported fields, with a type name or without one, in any layout. -/
theorem structs_extract_text (marker : ExportMarker) (keepsComments : Bool)
    (form : LaidStruct (!keepsComments)) (name : Name)
    (hb : form.fields.body Layout.text ≠ []) :
    let grammar := withMarker marker keepsComments
    let bare := grammar.extract (String.ofList form.text)
    let aliased := grammar.extract (String.ofList (form.aliasedText name))
    (bare.structs = [⟨String.ofList form.tag.chars, form.fields.leaves⟩] ∧
      bare.structAliases = [] ∧ bare.aliasedStructs = []) ∧
    (aliased.aliasedStructs =
        [⟨String.ofList form.tag.chars, String.ofList name.chars, form.fields.leaves⟩] ∧
      aliased.structs = [] ∧ aliased.structAliases = []) := by
  intro grammar bare aliased
  have hbare : bare = grammar.declarations ((form.shown hb).text "struct ") := by
    rw [← form.visibleText_text hb]
    exact congrArg (fun text => grammar.declarations (grammar.visibleText text))
      String.toList_ofList
  have haliased : aliased = grammar.declarations (form.aliasedShown name hb).text := by
    rw [← form.visibleText_aliasedText name hb]
    exact congrArg (fun text => grammar.declarations (grammar.visibleText text))
      String.toList_ofList
  rw [hbare, haliased]
  exact ⟨form.declarations_shown hb, form.declarations_aliasedShown name hb⟩

/-- Fields that stand apart and fields that do not, one of them an array of two
dimensions. -/
theorem structs_extract_text_of_arrays :
    let form : LaidStruct (!false) :=
      { tag := .ofAll "Grid".toList (by decide)
        fields :=
          { lead := [.block rfl " int x; ".toList (by decide), .blank '\n' (by decide)]
            fields :=
              [{ qualified := true
                 type := ⟨.ofAll "int".toList (by decide), 1⟩
                 gap := [.blank '\t' (by decide), .blank ' ' (by decide)]
                 apart := ⟨' ', by decide⟩
                 stars := 0
                 label := .ofAll "first".toList (by decide)
                 behind := [] },
                { qualified := false
                  type := ⟨.ofAll "int".toList (by decide), 0⟩
                  gap := [.blank ' ' (by decide)]
                  apart := ⟨' ', by decide⟩
                  stars := 0
                  label := .ofAll "cells[2][3]".toList (by decide)
                  behind := [.blank '\r' (by decide), .blank '\n' (by decide)] },
                { qualified := false
                  type := ⟨.ofAll "char".toList (by decide), 0⟩
                  gap := [.blank ' ' (by decide), .blank '\n' (by decide), .blank ' ' (by decide)]
                  apart := ⟨' ', by decide⟩
                  stars := 2
                  label := .ofAll "names[3]".toList (by decide)
                  behind := [.blank '\t' (by decide)] }] } }
    let name : Name := .ofAll "Table".toList (by decide)
    let body := "/* int x; */\nconst int*\t first;int cells[2][3];\r\nchar \n **names[3];\t"
    let fields : List Field := [⟨"int*", "first"⟩, ⟨"char", "**names[3]"⟩]
    let bare := (withMarker .standard false).extract (String.ofList form.text)
    let aliased := (withMarker .standard false).extract (String.ofList (form.aliasedText name))
    (form.fields.body Layout.text = body.toList ∧ body.toList ≠ []) ∧
      (bare.structs = [⟨"Grid", fields⟩] ∧ bare.structAliases = [] ∧ bare.aliasedStructs = []) ∧
      (aliased.aliasedStructs = [⟨"Grid", "Table", fields⟩] ∧ aliased.structs = [] ∧
        aliased.structAliases = []) := by
  intro form name body fields bare aliased
  have hbody : form.fields.body Layout.text = body.toList := by decide +kernel
  have hb : body.toList ≠ [] := by decide
  have hfields : form.fields.leaves = fields := by decide +kernel
  have htag : String.ofList form.tag.chars = "Grid" := by decide +kernel
  have hname : String.ofList name.chars = "Table" := by decide +kernel
  obtain ⟨hbare, haliased⟩ := structs_extract_text .standard false form name (hbody ▸ hb)
  rw [hfields, htag] at hbare haliased
  rw [hname] at haliased
  exact ⟨⟨hbody, hb⟩, hbare, haliased⟩

end LaidStruct

end HeaderExports
