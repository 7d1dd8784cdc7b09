import HeaderExports.Proofs.Extraction.Marks
import HeaderExports.Proofs.Grammar.Members

/-!
# Members are extracted from what is read

If a list or a body is read as members of given forms, these members are
extracted: nothing in them is changed when they are put on one line, but for
the blanks behind a sign.
-/

namespace HeaderExports.Grammar

open Pattern
open Text (dropBlanks oneLine oneLine_of_not_blank)

/-- What a parameter declares. Its qualifier is left out. -/
def ParameterForm.leaves (form : ParameterForm) : Parameter :=
  ⟨String.ofList form.type.chars, String.ofList form.name.chars⟩

/-- What an enumerator declares, with the sign of its value at the word. -/
def EnumeratorForm.leaves (form : EnumeratorForm) : Enumerator :=
  ⟨String.ofList form.name.chars, String.ofList
    (form.value.elim [] fun value => signText value.2.negative ++ value.2.word.chars)⟩

/-- What a field declares. Its qualifier is left out. -/
def FieldForm.leaves (form : FieldForm) : Field :=
  ⟨String.ofList form.type.chars, String.ofList form.nameChars⟩

variable (marker : ExportMarker) (keepsComments : Bool) {text : List Char}

/-- The parameters that are read are extracted. -/
theorem parameters_of_readings {forms : List ParameterForm}
    (hr : parameterPattern.readings text = forms.map ParameterForm.parts) :
    (withMarker marker keepsComments).parameters text = forms.map ParameterForm.leaves := by
  unfold parameters
  rw [map_scan_eq fun found found' he => by
    rw [Occurrence.leaf_congr he, Occurrence.leaf_congr he]]
  change (parameterPattern.readings text).map _ = _
  rw [hr, List.map_map]
  refine List.map_congr_left fun form _ => ?_
  change (⟨String.ofList (oneLine form.type.chars), String.ofList (oneLine form.name.chars)⟩ :
    Parameter) = form.leaves
  rw [oneLine_parameterType, oneLine_parameterName, ParameterForm.leaves]

/-- The enumerators that are read are extracted. -/
theorem enumerators_of_readings {forms : List EnumeratorForm}
    (hr : enumeratorPattern.readings text = forms.map EnumeratorForm.parts) :
    (withMarker marker keepsComments).enumerators text = forms.map EnumeratorForm.leaves := by
  unfold enumerators
  rw [map_scan_eq fun found found' he => by
    rw [Occurrence.leaf_congr he, Occurrence.part_congr he]]
  change (enumeratorPattern.readings text).map _ = _
  rw [hr, List.map_map]
  refine List.map_congr_left fun form _ => ?_
  obtain ⟨name, gap, _ | ⟨before, value⟩⟩ := form
  · change (⟨String.ofList (oneLine name.chars), _⟩ : Enumerator) = _
    rw [oneLine_name]
    rfl
  · change (⟨String.ofList (oneLine name.chars),
      String.ofList (dropBlanks (oneLine value.chars))⟩ : Enumerator) = _
    rw [oneLine_name, value.dropBlanks_oneLine]
    rfl

/-- Of the fields that are read those with a supported name are extracted. -/
theorem fields_of_readings {forms : List FieldForm}
    (hr : fieldPattern.readings text = forms.map FieldForm.parts) :
    (withMarker marker keepsComments).fields text =
      (forms.filter fun form => (withMarker marker keepsComments).supportsFieldName
        form.nameChars).map FieldForm.leaves := by
  unfold fields
  rw [map_filter_scan_eq
    (fun found found' he => by rw [Occurrence.leaf_congr he, Occurrence.leaf_congr he])
    (fun found found' he => by rw [Occurrence.part_congr he])]
  change ((fieldPattern.readings text).filter _).map _ = _
  rw [hr, List.filter_map, List.map_map]
  have hkept : forms.filter ((fun marks => (withMarker marker keepsComments).supportsFieldName
        (Occurrence.part ⟨⟨0, 0⟩, marks⟩ .name)) ∘ FieldForm.parts) =
      forms.filter fun form =>
        (withMarker marker keepsComments).supportsFieldName form.nameChars := by
    refine List.filter_congr fun form _ => ?_
    change (withMarker marker keepsComments).supportsFieldName (oneLine form.nameChars) = _
    rw [form.oneLine_nameChars]
  rw [hkept]
  refine List.map_congr_left fun form _ => ?_
  change (⟨String.ofList (oneLine form.type.chars), String.ofList (oneLine form.nameChars)⟩ :
    Field) = form.leaves
  rw [oneLine_of_not_blank form.type.not_blank, form.oneLine_nameChars, FieldForm.leaves]

end HeaderExports.Grammar
