import HeaderExports.Proofs.Canonical.Declarations
import HeaderExports.Proofs.Extraction.Members
import HeaderExports.Proofs.Grammar.Preferred

/-!
# Parameters, enumerators and fields are read back

In a canonical list or body the preferred readings are exactly the members, in
the order written. A type that is spelled like the qualifier is not taken for
it, since no second word stands behind it.
-/

namespace HeaderExports.Canonical

open Grammar Pattern
open Text (isBlank isWord)

/-! ## Readings of lists -/

section Separated

variable {p : Pattern Part} {δ : Type} {text : δ → List Char} {marks : δ → Marks Part}
  {tail : List Char}

/-- If every item is read in front of a comma and in front of the tail, the
items of a separated list are read in order. -/
theorem readings_separated
    (hx : ∀ item rest, rest = tail ∨ (∃ more, rest = ',' :: more) →
      p.readings (text item ++ rest) = marks item :: p.readings rest)
    (hcomma : ∀ more, p.readings (',' :: ' ' :: more) = p.readings more)
    (ht : p.readings tail = []) (items : List δ) :
    p.readings (separated (items.map text) ++ tail) = items.map marks := by
  have hmore (items : List δ) : p.readings
      ((items.map text).flatMap (fun item => ',' :: ' ' :: item) ++ tail) = items.map marks := by
    induction items with
    | nil => exact ht
    | cons item items ih =>
      rw [List.map_cons, List.flatMap_cons, List.append_assoc, List.cons_append, List.cons_append,
        hcomma, hx, ih, List.map_cons]
      cases items with
      | nil => exact .inl rfl
      | cons next items => exact .inr ⟨_, rfl⟩
  cases items with
  | nil => exact ht
  | cons item items =>
    rw [List.map_cons, separated, List.append_assoc, hx, hmore, List.map_cons]
    cases items with
    | nil => exact .inl rfl
    | cons next items => exact .inr ⟨_, rfl⟩

end Separated

/-! ## Parameters -/

/-- What the parameter pattern marks. -/
def Parameter.parts (parameter : Parameter) : Marks Part :=
  [(.type, parameter.type.chars), (.name, parameter.name.chars)]

/-- A parameter as its pattern writes it. -/
def Parameter.form (parameter : Parameter) : ParameterForm :=
  ⟨false, parameter.type, parameter.name⟩

/-- A parameter is read in front of a comma and at the end of its list. -/
theorem readings_parameter (parameter : Parameter) {rest : List Char}
    (hr : rest = [] ∨ ∃ more, rest = ',' :: more) :
    parameterPattern.readings (parameter.text ++ rest) =
      parameter.parts :: parameterPattern.readings rest := by
  have hend : ∀ c ∈ rest.head?, inParameterName c = false := by
    rcases hr with rfl | ⟨more, rfl⟩
    · intro c hc
      cases hc
    · intro c hc
      cases hc
      decide
  have hbehind : ¬NameBehindSpace rest := by
    rintro ⟨c, more, rfl, -⟩
    rcases hr with h | ⟨others, h⟩
    · cases h
    · exact absurd (List.cons.inj h).1 (by decide)
  exact readings_append_of_first? not_spells_parameter.1
    (prefers_parameterForm parameter.form hend hbehind).first?_eq

/-- The readings of a parameter list are its parameters. -/
theorem readings_listText (parameters : List Parameter) :
    parameterPattern.readings (listText parameters) = parameters.map Parameter.parts := by
  have hn := not_spells_parameter.1
  have hskip := not_spells_parameter.2
  have h := readings_separated (fun parameter rest hr => readings_parameter parameter hr)
    (fun more => by
      rw [readings_cons_of_forall hn (hskip ',' (by decide)),
        readings_cons_of_forall hn (hskip ' ' (by decide))])
    (readings_nil hn) parameters
  rwa [List.append_nil] at h

/-- A parameter list is extracted as its parameters. -/
theorem parameters_listText (marker : ExportMarker) (keepsComments : Bool)
    (parameters : List Parameter) :
    (withMarker marker keepsComments).parameters (listText parameters) =
      parameters.map Parameter.leaves := by
  have hreadings : parameterPattern.readings (listText parameters) =
      (parameters.map Parameter.form).map ParameterForm.parts := by
    rw [List.map_map]
    exact readings_listText parameters
  rw [parameters_of_readings marker keepsComments hreadings, List.map_map]
  rfl

/-! ## Enumerators -/

/-- What the enumerator pattern marks. -/
def Member.parts (member : Member) : Marks Part :=
  (.name, member.name.chars) :: member.value.elim [] fun _ => [(.value, member.valueText)]

/-- A member as its pattern writes it. -/
def Member.form (member : Member) : EnumeratorForm where
  name := member.name
  gap := space.toStretch
  value := member.value.map fun value => (space.toStretch, ⟨value.1, noGap, value.2⟩)

/-- The pattern marks the parts of a member and declares the same. -/
theorem Member.form_eq (member : Member) :
    member.form.parts = member.parts ∧ member.form.leaves = member.leaves := by
  obtain ⟨name, _ | ⟨_ | _, value⟩⟩ := member <;> exact ⟨rfl, rfl⟩

/-- The preferred reading of an enumerator with a value. -/
theorem prefers_member_of_value (name : Name) (negative : Bool) (value : Name) {rest : List Char}
    (hr : ∀ c ∈ rest.head?, isWord c = false) :
    Prefers enumeratorPattern (Member.text ⟨name, some (negative, value)⟩)
      (Member.parts ⟨name, some (negative, value)⟩) rest := by
  have h := prefers_valuedEnumerator name space.toStretch space.toStretch
    ⟨negative, noGap, value⟩ (fun _ => rfl) hr
  cases negative <;> exact h

/-- An enumerator is read in front of a comma and at the end of its body. -/
theorem readings_member (member : Member) {rest : List Char}
    (hr : rest = [' '] ∨ ∃ more, rest = ',' :: more) :
    enumeratorPattern.readings (member.text ++ rest) =
      member.parts :: enumeratorPattern.readings rest := by
  have hn := not_spells_enumerator.1
  obtain ⟨name, _ | ⟨negative, value⟩⟩ := member
  · have htext : Member.text ⟨name, none⟩ = name.chars := List.append_nil _
    rw [htext]
    rcases hr with rfl | ⟨more, rfl⟩
    · -- the blank behind the last name is read with it
      have hread := @prefers_bareEnumerator name space.toStretch [] fun c hc => by cases hc
      have hall := readings_append_of_first? hn hread.first?_eq
      rw [List.append_nil] at hall
      rw [readings_cons_of_forall hn (not_spells_enumerator.2 ' ' (by decide))]
      exact hall
    · have hread := @prefers_bareEnumerator name noGap (',' :: more)
        fun c hc => by cases hc; decide
      rw [chars_noGap, List.append_nil] at hread
      exact readings_append_of_first? hn hread.first?_eq
  · refine readings_append_of_first? hn (prefers_member_of_value name negative value ?_).first?_eq
    rcases hr with rfl | ⟨more, rfl⟩
    · intro c hc
      cases hc
      decide
    · intro c hc
      cases hc
      decide

/-- The readings of the body of an enumeration are its members. -/
theorem readings_membersText (members : List Member) :
    enumeratorPattern.readings (membersText members) = members.map Member.parts := by
  have hn := not_spells_enumerator.1
  have hskip := not_spells_enumerator.2
  have htail : enumeratorPattern.readings [' '] = [] := by
    rw [readings_cons_of_forall hn (hskip ' ' (by decide)), readings_nil hn]
  cases members with
  | nil => exact htail
  | cons member members =>
    have h := readings_separated (fun member rest hr => readings_member member hr)
      (fun more => by
        rw [readings_cons_of_forall hn (hskip ',' (by decide)),
          readings_cons_of_forall hn (hskip ' ' (by decide))])
      htail (member :: members)
    rw [membersText, readings_cons_of_forall hn (hskip ' ' (by decide))]
    · exact h
    · exact List.cons_ne_nil _ _

/-- No character of a value is a blank. -/
theorem Member.not_blank_of_mem_valueText (member : Member) :
    ∀ c ∈ member.valueText, ¬isBlank c = true := by
  intro c hc
  unfold valueText at hc
  cases hv : member.value with
  | none =>
    rw [hv] at hc
    cases hc
  | some value =>
    rw [hv] at hc
    rcases List.mem_append.mp hc with h | h
    · split_ifs at h
      · rw [List.mem_singleton.mp h]
        decide
      · cases h
    · exact Name.not_blank value.2 c h

/-- The body of an enumeration is extracted as its members. -/
theorem enumerators_membersText (marker : ExportMarker) (keepsComments : Bool)
    (members : List Member) :
    (withMarker marker keepsComments).enumerators (membersText members) =
      members.map Member.leaves := by
  have hreadings : enumeratorPattern.readings (membersText members) =
      (members.map Member.form).map EnumeratorForm.parts := by
    rw [List.map_map, readings_membersText]
    exact List.map_congr_left fun member _ => member.form_eq.1.symm
  rw [enumerators_of_readings marker keepsComments hreadings, List.map_map]
  exact List.map_congr_left fun member _ => member.form_eq.2

end HeaderExports.Canonical
