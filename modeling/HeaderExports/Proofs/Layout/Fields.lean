import HeaderExports.Proofs.Extraction.Members
import HeaderExports.Proofs.Grammar.Preferred
import HeaderExports.Proofs.Layout.CommaLists

/-!
# Fields in any layout

The fields of a struct are read in order whatever stands between them, and in
front of a name any layout will do that is not deleted as a whole. What a field
is written from is told by its text alone, so that a field that is left out
afterwards takes nothing of the next one with it.
-/

namespace HeaderExports

open Grammar Pattern
open Text

variable {comments : Bool}

/-! ## Fields -/

/-- A field with layout behind its type and behind its semicolon. -/
structure LaidField (comments : Bool) where
  /-- Whether the qualifier stands in front. -/
  qualified : Bool
  /-- The type. -/
  type : StarredName
  /-- What stands behind the type. -/
  gap : Layout comments
  /-- Something of it is left on one line. -/
  apart : ∃ c ∈ gap.shown, isLineBreaking c = false
  /-- The number of stars at the name. -/
  stars : ℕ
  /-- The name behind its stars. -/
  label : Token inFieldName
  /-- What stands behind the semicolon. -/
  behind : Layout comments

namespace LaidField

/-- The name of a field with its stars. -/
def nameChars (field : LaidField comments) : List Char :=
  List.replicate field.stars '*' ++ field.label.chars

/-- The characters of a type are solid. -/
theorem isSolid_of_mem_type (field : LaidField comments) :
    ∀ c ∈ field.type.chars, isSolid c = true := by
  intro c hc
  refine isSolid_of_inParameterName ?_
  rcases field.type.of_mem hc with h | rfl
  · simp [inParameterName, h]
  · decide

/-- The characters of a name and its semicolon are solid. -/
theorem isSolid_of_mem_name (field : LaidField comments) :
    ∀ c ∈ field.nameChars ++ [';'], isSolid c = true := by
  refine List.forall_mem_append.mpr ⟨List.forall_mem_append.mpr ⟨fun c hc => ?_, fun c hc => ?_⟩,
    List.all_eq_true.mp (by decide)⟩
  · rw [List.eq_of_mem_replicate hc]
    decide
  · exact isSolid_of_inParameterName
      (inParameterName_of_fieldName (field.label.inside_of_mem c hc))

/-- The tokens of a field with their layout. -/
def pieces (field : LaidField comments) : List (Piece comments) :=
  (if field.qualified then [⟨qualifierToken, Layout.spaces false⟩] else []) ++
    [⟨⟨⟨field.type.chars, field.isSolid_of_mem_type⟩, field.type.chars_ne_nil⟩, field.gap⟩,
      ⟨⟨⟨field.nameChars ++ [';'], field.isSolid_of_mem_name⟩,
        List.append_ne_nil_of_right_ne_nil _ (List.cons_ne_nil _ _)⟩, field.behind⟩]

/-- The field with another gap behind its type. -/
def form (field : LaidField comments) (gap : Token isBlank) : FieldForm where
  qualified := field.qualified
  type := field.type
  gap := gap
  stars := field.stars
  label := field.label

/-- What is seen of the gap behind the type. -/
def seenGap (field : LaidField comments) : Token isBlank where
  chars := field.gap.shown
  inside_of_mem := field.gap.isBlank_of_mem_shown
  nonempty := by
    obtain ⟨c, hc, -⟩ := field.apart
    exact List.ne_nil_of_mem hc

/-- What is left of the gap behind the type on one line. -/
def shortGap (field : LaidField comments) : Token isBlank where
  chars := field.gap.short
  inside_of_mem := field.gap.isBlank_of_mem_short
  nonempty := by
    obtain ⟨c, hc, hb⟩ := field.apart
    exact List.ne_nil_of_mem (mem_oneLine.mpr ⟨hc, hb⟩)

/-- The field that is declared, without its qualifier. -/
def leaves (field : LaidField comments) : Field :=
  ⟨String.ofList field.type.chars, String.ofList field.nameChars⟩

/-- A field is written with what is made of its gap. -/
theorem written_pieces (write : Layout comments → List Char)
    (hspace : write (Layout.spaces false) = [' ']) (field : LaidField comments)
    (gap : Token isBlank) (hg : write field.gap = gap.chars) :
    written write field.pieces = (field.form gap).text ++ write field.behind := by
  obtain ⟨_ | _, type, layout, apart, stars, label, behind⟩ := field
  · simp [pieces, written, form, FieldForm.text, FieldForm.nameChars, nameChars, qualifierText, hg]
  · simp [pieces, written, form, FieldForm.text, FieldForm.nameChars, nameChars, qualifierText, hg,
      hspace, qualifierToken]

/-- A field is seen with what is seen of its gap. -/
theorem written_shown (field : LaidField comments) :
    written Layout.shown field.pieces = (field.form field.seenGap).text ++ field.behind.shown :=
  field.written_pieces Layout.shown rfl field.seenGap rfl

/-- A field is left on one line with what is left of its gap. -/
theorem written_short (field : LaidField comments) :
    written Layout.short field.pieces = (field.form field.shortGap).text ++ field.behind.short :=
  field.written_pieces Layout.short (Layout.short_spaces false) field.shortGap rfl

/-- The tokens of a field may stand in the body of a struct. -/
theorem inStructBody_of_mem_pieces (field : LaidField comments) :
    ∀ piece ∈ field.pieces, ∀ c ∈ piece.token.chars, inStructBody c = true := by
  have hqualifier : ∀ c ∈ qualifierToken.chars, inStructBody c = true :=
    List.all_eq_true.mp (by decide)
  have hname {c : Char} (hc : inParameterName c = true) : inStructBody c = true := by
    simp only [inParameterName, Bool.or_eq_true] at hc
    rcases hc with ((hc | hc) | hc) | hc <;> simp [inStructBody, hc]
  have htype : ∀ c ∈ field.type.chars, inStructBody c = true := by
    intro c hc
    rcases field.type.of_mem hc with h | rfl
    · simp [inStructBody, h]
    · decide
  have hlabel : ∀ c ∈ field.nameChars ++ [';'], inStructBody c = true := by
    refine List.forall_mem_append.mpr
      ⟨List.forall_mem_append.mpr ⟨fun c hc => ?_, fun c hc => ?_⟩,
        List.all_eq_true.mp (by decide)⟩
    · rw [List.eq_of_mem_replicate hc]
      decide
    · exact hname (inParameterName_of_fieldName (field.label.inside_of_mem c hc))
  refine List.forall_mem_append.mpr ⟨?_, List.forall_mem_cons.mpr
    ⟨htype, List.forall_mem_singleton.mpr hlabel⟩⟩
  split_ifs
  · exact List.forall_mem_singleton.mpr hqualifier
  · exact fun piece hp => absurd hp List.not_mem_nil

end LaidField

/-- The fields of a struct with layout around each. -/
structure LaidFields (comments : Bool) where
  /-- What stands in front of the first field. -/
  lead : Layout comments
  /-- The fields. -/
  fields : List (LaidField comments)

/-- A name without brackets, or that of one array of fixed size. -/
def IsSupportedName (name : List Char) : Prop :=
  '[' ∈ name → ∃ form : FixedSizeForm, form.text = name

/-- The names that an extraction keeps are the supported ones. -/
theorem supportsFieldName_iff (marker : ExportMarker) (keepsComments : Bool) (name : List Char) :
    (withMarker marker keepsComments).supportsFieldName name = true ↔ IsSupportedName name := by
  have haccepts : fixedSizePattern.accepts name = true ↔
      ∃ form : FixedSizeForm, form.text = name := by
    rw [accepts_iff]
    constructor
    · rintro ⟨marks, hs⟩
      obtain ⟨form, he, -⟩ := writes_fixedSizePattern.exists_of_spells hs
      exact ⟨form, he.symm⟩
    · rintro ⟨form, rfl⟩
      exact ⟨_, writes_fixedSizePattern.spells form⟩
  change (!name.contains '[' || fixedSizePattern.accepts name) = true ↔ _
  rw [Bool.or_eq_true, Bool.not_eq_true', ← Bool.not_eq_true, List.contains_iff_mem, haccepts,
    IsSupportedName, imp_iff_not_or]

instance : DecidablePred IsSupportedName :=
  fun name => decidable_of_iff _ (supportsFieldName_iff .standard false name)

namespace LaidFields

/-- The body of a struct. -/
def laidText (fields : LaidFields comments) : LaidText comments where
  lead := fields.lead
  pieces := fields.fields.flatMap LaidField.pieces

/-- The body of a struct, its layout written in a given way. -/
def body (write : Layout comments → List Char) (fields : LaidFields comments) : List Char :=
  fields.laidText.chars write

/-- The fields that are declared, but for arrays of other shapes. -/
def leaves (fields : LaidFields comments) : List Field :=
  (fields.fields.filter fun field => IsSupportedName field.nameChars).map LaidField.leaves

/-- What is seen of the body may stand in the body of a struct. -/
theorem inStructBody_of_mem_body (fields : LaidFields comments) :
    ∀ c ∈ fields.body Layout.shown, inStructBody c = true := by
  refine LaidText.forall_mem_shown (fun c hc => by simp [inStructBody, hc]) fun piece hp => ?_
  obtain ⟨field, -, hp⟩ := List.mem_flatMap.mp hp
  exact field.inStructBody_of_mem_pieces piece hp

/-- On one line a body is read as its fields, whether they are kept or not. -/
theorem readings_body (fields : LaidFields comments) :
    fieldPattern.readings (oneLine (fields.body Layout.shown)) =
      fields.fields.map fun field => (field.form field.shortGap).parts := by
  have hn := determined_fieldPattern.nonempty
  have hskip (c : Char) (hc : isBlank c = true) :=
    not_spells_field (not_isWord_of_isBlank hc).1
  obtain ⟨lead, fields⟩ := fields
  rw [body, LaidText.oneLine_shown, LaidText.chars, laidText,
    readings_blanks_append hn hskip lead.isBlank_of_mem_short]
  induction fields with
  | nil => exact readings_nil hn
  | cons field fields ih =>
    have hfirst := determined_fieldPattern.first?_of_spells
      (writes_fieldPattern.spells (field.form field.shortGap))
    rw [List.flatMap_cons, written_append, field.written_short, List.append_assoc,
      readings_append_of_first? hn (hfirst _),
      readings_blanks_append hn hskip field.behind.isBlank_of_mem_short, ih, List.map_cons]

/-- On one line a body is read as the fields that are supported. -/
theorem fields_body (marker : ExportMarker) (keepsComments : Bool) (fields : LaidFields comments) :
    (withMarker marker keepsComments).fields (oneLine (fields.body Layout.shown)) =
      fields.leaves := by
  have hreadings : fieldPattern.readings (oneLine (fields.body Layout.shown)) =
      (fields.fields.map fun field => field.form field.shortGap).map FieldForm.parts := by
    rw [List.map_map]
    exact fields.readings_body
  rw [fields_of_readings marker keepsComments hreadings, List.filter_map, List.map_map, leaves]
  have hkept : fields.fields.filter ((fun form : FieldForm =>
        (withMarker marker keepsComments).supportsFieldName form.nameChars) ∘
          fun field => field.form field.shortGap) =
      fields.fields.filter fun field => IsSupportedName field.nameChars := by
    refine List.filter_congr fun field _ => ?_
    rw [Bool.eq_iff_iff, decide_eq_true_iff, ← supportsFieldName_iff marker keepsComments]
    rfl
  rw [hkept]
  rfl

end LaidFields

end HeaderExports
