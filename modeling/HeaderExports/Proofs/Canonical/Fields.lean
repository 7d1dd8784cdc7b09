import HeaderExports.Proofs.Canonical.Members

/-!
# Fields are read back

In the canonical body of a struct the preferred readings are exactly the
fields. None of them is left out, since a canonical label either has no
bracket or is one array of fixed size.
-/

namespace HeaderExports.Canonical

open Grammar Pattern
open Text (isBlank)

/-- What the field pattern marks. -/
def Field.parts (field : Field) : Marks Part :=
  [(.type, field.type.chars), (.name, field.nameText)]

/-- A label has a character. -/
theorem Label.text_ne_nil (label : Label) : label.text ≠ [] := by
  cases label with
  | plain chars => exact chars.nonempty
  | array base size => exact List.append_ne_nil_of_left_ne_nil base.nonempty _

/-- The label as a token of its class. -/
def Label.token (label : Label) : Token inFieldName :=
  ⟨⟨label.text, fun _ hc => inFieldName_of_mem_label hc⟩, label.text_ne_nil⟩

/-- A field as its pattern writes it. -/
def Field.form (field : Field) : FieldForm :=
  ⟨false, field.type, space, field.stars, field.label.token⟩

/-- No character of a field's name is a blank. -/
theorem Field.not_blank_of_mem_nameText (field : Field) :
    ∀ c ∈ field.nameText, ¬isBlank c = true :=
  field.form.not_blank_of_mem_nameChars

/-- A field is a word of its pattern. -/
theorem spells_field (field : Field) : Spells fieldPattern field.text field.parts :=
  writes_fieldPattern.spells field.form

/-- The readings of the body of a struct are its fields. -/
theorem readings_fieldsText (fields : List Field) :
    fieldPattern.readings (fieldsText fields) = fields.map Field.parts := by
  have hn := determined_fieldPattern.nonempty
  have hskip : ∀ word marks, ¬Spells fieldPattern (' ' :: word) marks :=
    not_spells_field (by decide)
  unfold fieldsText
  induction fields with
  | nil =>
    rw [List.flatMap_nil, List.nil_append, readings_cons_of_forall hn hskip, readings_nil hn,
      List.map_nil]
  | cons field fields ih =>
    have hfirst := determined_fieldPattern.first?_of_spells (spells_field field)
    rw [List.flatMap_cons, List.append_assoc, List.cons_append, readings_cons_of_forall hn hskip,
      readings_append_of_first? hn (hfirst _), ih, List.map_cons]

/-- A canonical name of a field is supported. -/
theorem supportsFieldName_nameText (marker : ExportMarker) (keepsComments : Bool) (field : Field) :
    (withMarker marker keepsComments).supportsFieldName field.nameText = true := by
  unfold supportsFieldName
  obtain ⟨type, count, label⟩ := field
  cases label with
  | plain chars =>
    have hbracket : '[' ∉ List.replicate count '*' ++ chars.chars :=
      List.not_mem_append (fun h => absurd (List.eq_of_mem_replicate h) (by decide))
        (chars.not_mem (by decide))
    rw [Bool.or_eq_true, Bool.not_eq_true', ← Bool.not_eq_true, List.contains_iff_mem]
    exact .inl hbracket
  | array base size =>
    rw [Bool.or_eq_true]
    exact .inr ((accepts_iff fixedSizePattern _).mpr
      ⟨_, writes_fixedSizePattern.spells ⟨count, base, size⟩⟩)

/-- The body of a struct is extracted as its fields. -/
theorem fields_fieldsText (marker : ExportMarker) (keepsComments : Bool) (fields : List Field) :
    (withMarker marker keepsComments).fields (fieldsText fields) = fields.map Field.leaves := by
  have hreadings : fieldPattern.readings (fieldsText fields) =
      (fields.map Field.form).map FieldForm.parts := by
    rw [List.map_map]
    exact readings_fieldsText fields
  have hkept : (fields.map Field.form).filter (fun form =>
      (withMarker marker keepsComments).supportsFieldName form.nameChars) =
        fields.map Field.form := by
    refine List.filter_eq_self.mpr fun form hm => ?_
    obtain ⟨field, -, rfl⟩ := List.mem_map.mp hm
    exact supportsFieldName_nameText marker keepsComments field
  rw [fields_of_readings marker keepsComments hreadings, hkept, List.map_map]
  rfl

end HeaderExports.Canonical
