import Mathlib.Data.List.DropRight
import HeaderExports.Proofs.Extraction.WellFormed
import HeaderExports.Proofs.References.Unresolved

/-!
# What is bare about a bare name

Types are reported under what is left of them without a leading qualifier and
without the stars at their end. In an extracted header that is a word, but for two
exceptions: the type of a parameter may hold stars in front of a word, which stay,
and the qualifier may be taken for a type itself.
-/

namespace HeaderExports

open Grammar Pattern
open Text (isBlank isWord trim)

/-! ## Trimmed texts -/

/-- A text without blanks at its edges is trimmed already. -/
theorem Text.trim_of_edges {text : List Char} (hhead : ∀ c ∈ text.head?, ¬isBlank c = true)
    (hlast : ∀ c ∈ text.getLast?, ¬isBlank c = true) : trim text = text := by
  have hfront : text.dropWhile isBlank = text := by
    cases text with
    | nil => rfl
    | cons c rest => exact List.dropWhile_cons_of_neg (hhead c rfl)
  have hback : text.rdropWhile isBlank = text :=
    List.rdropWhile_eq_self_iff.mpr fun hne => hlast _ (List.getLast?_eq_getLast_of_ne_nil hne)
  rw [trim, hfront]
  exact hback

namespace TypeUse

variable {text : List Char}

/-- Only a qualifier with a space behind it is dropped. -/
theorem dropQualifier_of_not_mem (hs : ' ' ∉ text) : dropQualifier text = text := by
  unfold dropQualifier
  split
  · exact absurd (by simp) hs
  · rfl

/-- A qualifier is dropped from the text behind it. -/
theorem dropQualifier_append (qualified : Bool) (hs : ' ' ∉ text) :
    dropQualifier (qualifierText qualified ++ text) = text := by
  cases qualified with
  | false => exact dropQualifier_of_not_mem hs
  | true => rfl

/-- A text that does not end in a star keeps its end. -/
theorem dropStars_of_getLast? (hl : text.getLast? ≠ some '*') : dropStars text = text := by
  refine List.rdropWhile_eq_self_iff.mpr fun hne hstar => hl ?_
  rw [List.getLast?_eq_getLast_of_ne_nil hne, of_decide_eq_true hstar]

/-- Stars at the end are dropped. -/
theorem dropStars_append (text : List Char) (stars : ℕ) :
    dropStars (text ++ List.replicate stars '*') = dropStars text := by
  induction stars with
  | zero => rw [List.replicate_zero, List.append_nil]
  | succ stars ih =>
    rw [List.replicate_succ', ← List.append_assoc, ← ih]
    exact List.rdropWhile_concat_pos _ _ _ (by decide)

/-- Of stars alone nothing is left. -/
theorem bareName_stars (stars : ℕ) :
    bareName (String.ofList (List.replicate stars '*')) = "" := by
  have hedge {c : Char} (hc : c ∈ List.replicate stars '*') : ¬isBlank c = true := by
    rw [List.eq_of_mem_replicate hc]
    decide
  have hspace : ' ' ∉ List.replicate stars '*' := fun hc => hedge hc (by decide)
  have hnothing : dropStars (List.replicate stars '*') = [] := dropStars_append [] stars
  rw [bareName, String.toList_ofList, Text.trim_of_edges (fun c hc => hedge (List.mem_of_head? hc))
    (fun c hc => hedge (List.mem_of_getLast? hc)), dropQualifier_of_not_mem hspace, hnothing]
  rfl

end TypeUse

/-! ## Types where they are used -/

namespace Grammar

/-- A type as it is written where it is used. -/
structure TypeForm where
  /-- Whether the qualifier stands in front. -/
  qualified : Bool
  /-- The type without its qualifier and without the stars at its end. It has no
  blank. -/
  name : Token inParameterType
  /-- All stars at the end stand behind it. -/
  unstarred : name.chars.getLast? ≠ some '*'
  /-- The number of stars behind it. -/
  stars : ℕ

namespace TypeForm

/-- The type with its qualifier and its stars. -/
def text (form : TypeForm) : List Char :=
  qualifierText form.qualified ++ (form.name.chars ++ List.replicate form.stars '*')

/-- No character of a type behind its qualifier is a blank. -/
theorem not_blank (form : TypeForm) :
    ∀ c ∈ form.name.chars ++ List.replicate form.stars '*', ¬isBlank c = true := by
  refine List.forall_mem_append.mpr ⟨fun c hc => ?_, fun c hc => ?_⟩
  · exact not_blank_of_inParameterName (inParameterName_of_type (form.name.inside_of_mem c hc))
  · rw [List.eq_of_mem_replicate hc]
    decide

/-- The bare name of a type is the type without qualifier and stars. -/
theorem bareName_text (form : TypeForm) :
    TypeUse.bareName (String.ofList form.text) = String.ofList form.name.chars := by
  have hne : form.name.chars ++ List.replicate form.stars '*' ≠ [] :=
    List.append_ne_nil_of_left_ne_nil form.name.nonempty _
  have hhead : ∀ c ∈ form.text.head?, ¬isBlank c = true := by
    rw [text]
    cases form.qualified with
    | false => exact fun c hc => form.not_blank c (List.mem_of_head? hc)
    | true =>
      rintro _ ⟨⟩
      decide
  have hlast : ∀ c ∈ form.text.getLast?, ¬isBlank c = true := by
    rw [text, List.getLast?_append_of_ne_nil _ hne]
    exact fun c hc => form.not_blank c (List.mem_of_getLast? hc)
  have hspace : ' ' ∉ form.name.chars ++ List.replicate form.stars '*' :=
    fun hc => form.not_blank _ hc (by decide)
  have hname : trim form.name.chars = form.name.chars := Text.trim_of_edges
    (fun c hc => form.not_blank c (List.mem_append_left _ (List.mem_of_head? hc)))
    (fun c hc => form.not_blank c (List.mem_append_left _ (List.mem_of_getLast? hc)))
  rw [TypeUse.bareName, String.toList_ofList, Text.trim_of_edges hhead hlast, text,
    TypeUse.dropQualifier_append _ hspace, TypeUse.dropStars_append,
    TypeUse.dropStars_of_getLast? form.unstarred, hname]

/-- A name with stars behind it, with the qualifier or without it. -/
def ofStarredName (qualified : Bool) (type : StarredName) : TypeForm where
  qualified := qualified
  name :=
    { chars := type.base.chars
      inside_of_mem := fun c hc => by rw [inParameterType, type.base.inside_of_mem c hc]; rfl
      nonempty := type.base.nonempty }
  unstarred := fun hl => type.base.not_mem (by decide) (List.mem_of_getLast? hl)
  stars := type.stars

end TypeForm

/-- The type of a parameter is written without a qualifier, if not with stars alone. -/
theorem exists_typeForm (type : Token inParameterType) :
    (∃ stars : ℕ, type.chars = List.replicate stars '*') ∨
      ∃ form : TypeForm, form.qualified = false ∧ type.chars = form.text := by
  have hwhole : type.chars.rdropWhile (· = '*') ++ type.chars.rtakeWhile (· = '*') = type.chars :=
    List.rdropWhile_append_rtakeWhile
  have hstars : type.chars.rtakeWhile (· = '*') =
      List.replicate (type.chars.rtakeWhile (· = '*')).length '*' :=
    List.eq_replicate_of_mem fun c hc => by simpa using List.mem_rtakeWhile_imp hc
  by_cases hne : type.chars.rdropWhile (· = '*') = []
  · rw [hne, List.nil_append] at hwhole
    rw [hwhole] at hstars
    exact .inl ⟨_, hstars⟩
  · refine .inr ⟨⟨false, ⟨⟨type.chars.rdropWhile (· = '*'), fun c hc => ?_⟩, hne⟩, fun hl => ?_,
      (type.chars.rtakeWhile (· = '*')).length⟩, rfl, ?_⟩
    · exact type.inside_of_mem c ((List.rdropWhile_prefix _ _).mem hc)
    · have hstop := List.rdropWhile_last_not _ type.chars hne
      rw [List.getLast?_eq_getLast_of_ne_nil hne, Option.some_inj] at hl
      exact hstop (decide_eq_true hl)
    · rw [TypeForm.text, ← hstars]
      exact hwhole.symm

end Grammar

/-! ## Uses of types in a header -/

/-- A name of a type that is a word and not the qualifier. -/
structure IsBareTypeName (name : String) : Prop where
  /-- It is a word. -/
  word : IsName name
  /-- It is not the qualifier. -/
  notQualifier : name ≠ "const"

/-- A type with all its stars at its end, behind a word if there is one. -/
def IsWordWithStars (type : String) : Prop :=
  ∃ (word : Stretch isWord) (stars : ℕ),
    type = String.ofList (word.chars ++ List.replicate stars '*')

/-- A type that is the qualifier, with stars behind it and perhaps with the qualifier
in front. -/
def IsQualifierType (type : String) : Prop :=
  ∃ (qualified : Bool) (stars : ℕ),
    type = String.ofList (qualifierText qualified ++ ("const".toList ++ List.replicate stars '*'))

/-- A name without blanks is a word exactly if it has no star. -/
theorem isName_iff (name : Token inParameterType) :
    IsName (String.ofList name.chars) ↔ '*' ∉ name.chars := by
  constructor
  · rintro ⟨word, he⟩ hstar
    rw [String.ofList_injective he] at hstar
    exact word.not_mem (by decide) hstar
  · intro hstar
    refine ⟨⟨⟨name.chars, fun c hc => ?_⟩, name.nonempty⟩, rfl⟩
    simpa [inParameterType, ne_of_mem_of_not_mem hc hstar] using name.inside_of_mem c hc

/-- A name without blanks is bare exactly if it has no star and is not the qualifier. -/
theorem isBareTypeName_iff (name : Token inParameterType) :
    IsBareTypeName (String.ofList name.chars) ↔
      '*' ∉ name.chars ∧ name.chars ≠ "const".toList := by
  have hconst : String.ofList name.chars = "const" ↔ name.chars = "const".toList := by
    rw [← String.toList_inj, String.toList_ofList]
  rw [← isName_iff, ne_eq, ← hconst]
  exact ⟨fun h => ⟨h.word, h.notQualifier⟩, fun h => ⟨h.1, h.2⟩⟩

namespace Header

variable {header : Header}

/-- A header uses the type of each of its parameters. -/
theorem exists_use_of_parameter :
    ∀ parameter ∈ header.parameters, ∃ use ∈ header.typeUses, use.written = parameter.type := by
  have huse (owner : String) (parameters : List Parameter) : ∀ parameter ∈ parameters,
      ∃ use ∈ Parameter.typeUses owner parameters, use.written = parameter.type :=
    fun parameter hm => ⟨_, List.mem_map_of_mem hm, rfl⟩
  simp only [Header.parameters, List.forall_mem_append, List.forall_mem_flatMap]
  refine ⟨fun function hf parameter hm => ?_, fun callback hc parameter hm => ?_⟩
  · obtain ⟨use, hu, hwritten⟩ := huse ("function " ++ function.name) _ parameter hm
    refine ⟨use, ?_, hwritten⟩
    simp only [typeUses, List.mem_append, List.mem_flatMap, List.mem_cons]
    exact .inl (.inl (.inl (.inl (.inl ⟨function, hf, .inr hu⟩))))
  · obtain ⟨use, hu, hwritten⟩ := huse ("function pointer " ++ callback.name) _ parameter hm
    refine ⟨use, ?_, hwritten⟩
    simp only [typeUses, List.mem_append, List.mem_flatMap, List.mem_cons]
    exact .inl (.inl (.inl (.inl (.inr ⟨callback, hc, .inr hu⟩))))

namespace WellFormed

variable (hw : header.WellFormed)

include hw

/-- A type that is used is that of a parameter, or a name with stars behind it. -/
theorem typeUses : ∀ use ∈ header.typeUses,
    (∃ parameter ∈ header.parameters, use.written = parameter.type) ∨
      ∃ (qualified : Bool) (type : StarredName),
        use.written = String.ofList (TypeForm.ofStarredName qualified type).text := by
  have hreturned {written : String} (h : IsReturnType written) : ∃ (qualified : Bool)
      (type : StarredName), written = String.ofList (TypeForm.ofStarredName qualified type).text :=
    h.elim fun type he => ⟨type.qualified, type.starred, he⟩
  have hfield {written : String} (h : IsStarredName written) : ∃ (qualified : Bool)
      (type : StarredName), written = String.ofList (TypeForm.ofStarredName qualified type).text :=
    h.elim fun type he => ⟨false, type, he⟩
  have htag {written : String} (h : IsName written) : IsStarredName written :=
    h.elim fun name he => ⟨⟨name, 0⟩, he.trans (congrArg _ (List.append_nil _).symm)⟩
  simp only [Header.typeUses, Parameter.typeUses, Field.typeUses, List.forall_mem_append,
    List.forall_mem_flatMap, List.forall_mem_cons, List.forall_mem_map]
  refine ⟨⟨⟨⟨⟨?_, ?_⟩, ?_⟩, ?_⟩, ?_⟩, ?_⟩
  · intro function hm
    refine ⟨.inr (hreturned (hw.functions function hm).returnType), fun parameter hp => ?_⟩
    exact .inl ⟨parameter, List.mem_append_left _ (List.mem_flatMap_of_mem hm hp), rfl⟩
  · intro callback hm
    refine ⟨.inr (hreturned (hw.callbacks callback hm).returnType), fun parameter hp => ?_⟩
    exact .inl ⟨parameter, List.mem_append_right _ (List.mem_flatMap_of_mem hm hp), rfl⟩
  · exact fun struct hm field hf => .inr (hfield ((hw.structs struct hm).fields field hf).type)
  · exact fun struct hm field hf =>
      .inr (hfield ((hw.aliasedStructs struct hm).fields field hf).type)
  · exact fun enumAlias hm => .inr (hfield (htag (hw.enumAliases enumAlias hm).tag))
  · exact fun structAlias hm => .inr (hfield (htag (hw.structAliases structAlias hm).tag))

/-- A type that is used is written with stars alone or has a bare name, which holds a
star only if it is the type of a parameter. -/
theorem exists_typeForm_of_use : ∀ use ∈ header.typeUses,
    (∃ stars : ℕ, use.written = String.ofList (List.replicate stars '*')) ∨
      ∃ form : TypeForm, use.written = String.ofList form.text ∧
        ('*' ∈ form.name.chars →
          ∃ parameter ∈ header.parameters, ¬IsWordWithStars parameter.type) := by
  intro use hm
  rcases hw.typeUses use hm with ⟨parameter, hp, hwritten⟩ | ⟨qualified, type, hwritten⟩
  · obtain ⟨type, htype⟩ := (hw.parameters parameter hp).type
    rcases exists_typeForm type with ⟨stars, hstars⟩ | ⟨form, hqualified, htext⟩
    · exact .inl ⟨stars, by rw [hwritten, htype, hstars]⟩
    · refine .inr ⟨form, by rw [hwritten, htype, htext], fun hstar => ⟨parameter, hp, ?_⟩⟩
      rintro ⟨word, stars, he⟩
      have hword : '*' ∉ word.chars := word.not_mem (by decide)
      rw [htype, htext, TypeForm.text, hqualified] at he
      have hsame := congrArg TypeUse.dropStars (String.ofList_injective he)
      rw [qualifierText, if_neg Bool.false_ne_true, List.nil_append, TypeUse.dropStars_append,
        TypeUse.dropStars_append, TypeUse.dropStars_of_getLast? form.unstarred,
        TypeUse.dropStars_of_getLast? fun hl => hword (List.mem_of_getLast? hl)] at hsame
      exact hword (hsame ▸ hstar)
  · exact .inr ⟨_, hwritten, fun hstar => absurd hstar (type.base.not_mem (by decide))⟩

/-- What is declared is a name. -/
theorem isName_of_declares {name : String} (hd : header.Declares name) : IsName name := by
  rcases hd with ⟨struct, hm, rfl⟩ | ⟨enum, hm, rfl⟩ | ⟨enumAlias, hm, rfl⟩ |
    ⟨structAlias, hm, rfl⟩ | ⟨callback, hm, rfl⟩ | ⟨struct, hm, rfl | ⟨htag, rfl⟩⟩
  · exact (hw.structs struct hm).name
  · exact (hw.enums enum hm).name
  · exact (hw.enumAliases enumAlias hm).typeName
  · exact (hw.structAliases structAlias hm).typeName
  · exact (hw.callbacks callback hm).name
  · exact (hw.aliasedStructs struct hm).typeName
  · exact (hw.aliasedStructs struct hm).tag.resolve_left htag

/-- What is reported is the bare name of a type that is used, and it is not declared. -/
theorem exists_typeForm_of_unresolved : ∀ reference ∈ header.unresolvedReferences,
    ∃ use ∈ header.typeUses, ∃ form : TypeForm,
      reference = use.reference ∧ use.written = String.ofList form.text ∧
        reference.typeName = String.ofList form.name.chars ∧
        ¬header.Declares reference.typeName ∧
        ('*' ∈ form.name.chars →
          ∃ parameter ∈ header.parameters, ¬IsWordWithStars parameter.type) := by
  intro reference hm
  obtain ⟨⟨use, hu, rfl⟩, hresolves⟩ := mem_unresolvedReferences.mp hm
  rw [← Bool.not_eq_true, resolves_iff, not_or, not_or] at hresolves
  obtain ⟨hne, -, hdeclares⟩ := hresolves
  rcases hw.exists_typeForm_of_use use hu with ⟨stars, hwritten⟩ | ⟨form, hwritten, hstar⟩
  · exact absurd ((congrArg _ hwritten).trans (TypeUse.bareName_stars stars)) hne
  · exact ⟨use, hu, form, rfl, hwritten, (congrArg _ hwritten).trans form.bareName_text,
      hdeclares, hstar⟩

/-- A type that holds a star in front of something else is reported with it. -/
theorem exists_starred_unresolved {parameter : Parameter} (hm : parameter ∈ header.parameters)
    (hp : ¬IsWordWithStars parameter.type) :
    ∃ reference ∈ header.unresolvedReferences, ¬IsName reference.typeName := by
  obtain ⟨use, hu, hwritten⟩ := exists_use_of_parameter parameter hm
  obtain ⟨type, htype⟩ := (hw.parameters parameter hm).type
  rcases exists_typeForm type with ⟨stars, hstars⟩ | ⟨form, hqualified, htext⟩
  · exact absurd ⟨⟨[], List.forall_mem_nil _⟩, stars, by rw [htype, hstars, List.nil_append]⟩ hp
  have hname : ¬IsName (String.ofList form.name.chars) := by
    rintro ⟨word, he⟩
    refine hp ⟨word.toStretch, form.stars, ?_⟩
    rw [htype, htext, TypeForm.text, hqualified, String.ofList_injective he]
    rfl
  have hstar : '*' ∈ form.name.chars := by rwa [isName_iff, not_not] at hname
  have hbare : TypeUse.bareName use.written = String.ofList form.name.chars := by
    rw [hwritten, htype, htext, form.bareName_text]
  refine ⟨use.reference, mem_unresolvedReferences.mpr ⟨⟨use, hu, rfl⟩, ?_⟩, ?_⟩
  · rw [← Bool.not_eq_true, resolves_iff, TypeUse.reference, hbare]
    rintro (hempty | hbuiltin | hdeclares)
    · exact form.name.nonempty (String.ofList_eq_empty_iff.mp hempty)
    · have hunstarred : ∀ name ∈ builtinTypes, '*' ∉ name.toList := by decide
      exact hunstarred _ hbuiltin (by rwa [String.toList_ofList])
    · exact hname (hw.isName_of_declares hdeclares)
  · rwa [TypeUse.reference, hbare]

end WellFormed

/-- The qualifier is reported where it stands for a type, if it is not declared. -/
theorem mem_unresolved_of_qualifier {use : TypeUse} (hu : use ∈ header.typeUses)
    (hq : IsQualifierType use.written) (hd : ¬header.Declares "const") :
    ⟨use.location, "const"⟩ ∈ header.unresolvedReferences := by
  obtain ⟨qualified, stars, hwritten⟩ := hq
  have hbare : TypeUse.bareName use.written = "const" := (congrArg _ hwritten).trans
    (TypeForm.ofStarredName qualified
      ⟨Token.ofAll "const".toList (by decide), stars⟩).bareName_text
  have hunresolved : header.resolves "const" = false := by
    rw [← Bool.not_eq_true, resolves_iff, not_or, not_or]
    exact ⟨by decide, by decide, hd⟩
  exact mem_unresolvedReferences.mpr ⟨⟨use, hu, by rw [hbare]⟩, hunresolved⟩

end Header

namespace Grammar

variable (marker : ExportMarker) (keepsComments : Bool) (content : String)

/-- What is reported of an extracted header is a type without the qualifier in front of
it and without the stars behind it: characters without a blank, at least one, and the
last of them is no star. It is a word other than the qualifier exactly if no star is
among the characters and they are not those of the qualifier. So all reported names
are bare exactly if every parameter has its stars at the end of its type, and the
qualifier is declared as a type or stands nowhere in the place of one. -/
theorem bareNames_extract :
    let header := (withMarker marker keepsComments).extract content
    (∀ reference ∈ header.unresolvedReferences, ∃ use ∈ header.typeUses, ∃ form : TypeForm,
      reference = use.reference ∧ use.written = String.ofList form.text ∧
        reference.typeName = String.ofList form.name.chars ∧
        (IsBareTypeName reference.typeName ↔
          '*' ∉ form.name.chars ∧ form.name.chars ≠ "const".toList)) ∧
    ((∀ reference ∈ header.unresolvedReferences, IsBareTypeName reference.typeName) ↔
      (∀ parameter ∈ header.parameters, IsWordWithStars parameter.type) ∧
        (header.Declares "const" ∨ ∀ use ∈ header.typeUses, ¬IsQualifierType use.written)) := by
  intro header
  have hw : header.WellFormed := (wellFormed_extract marker keepsComments content).1
  refine ⟨fun reference hm => ?_, fun hall => ⟨fun parameter hm => ?_, ?_⟩,
    fun ⟨hstars, hconst⟩ reference hm => ?_⟩
  · obtain ⟨use, hu, form, href, hwritten, hname, -, -⟩ :=
      hw.exists_typeForm_of_unresolved reference hm
    exact ⟨use, hu, form, href, hwritten, hname, by rw [hname, isBareTypeName_iff]⟩
  · by_contra hp
    obtain ⟨reference, hr, hname⟩ := hw.exists_starred_unresolved hm hp
    exact hname (hall reference hr).word
  · refine or_iff_not_imp_left.mpr fun hd use hu hq => ?_
    exact (hall _ (Header.mem_unresolved_of_qualifier hu hq hd)).notQualifier rfl
  · obtain ⟨use, hu, form, -, hwritten, hname, hundeclared, hstar⟩ :=
      hw.exists_typeForm_of_unresolved reference hm
    rw [hname, isBareTypeName_iff]
    refine ⟨fun hc => ?_, fun hc => ?_⟩
    · obtain ⟨parameter, hp, hnot⟩ := hstar hc
      exact hnot (hstars parameter hp)
    · rw [hname, hc] at hundeclared
      refine hconst.elim hundeclared fun hunused => hunused use hu ?_
      exact ⟨form.qualified, form.stars, by rw [hwritten, TypeForm.text, hc]⟩

/-- A qualifier that stands behind a star is reported with the star, and one that
stands alone in front of the name is reported as the type. -/
theorem starred_and_qualifier_names_reported :
    (standard.extract "A_EXPORT void f(Widget*const p);").unresolvedReferences =
        [⟨"function f(p)", "Widget*const"⟩] ∧
      (standard.extract "A_EXPORT int f(const int);").unresolvedReferences =
        [⟨"function f(int)", "const"⟩] ∧
      ¬∀ (marker : ExportMarker) (keepsComments : Bool) (content : String),
        ∀ reference ∈ ((withMarker marker keepsComments).extract content).unresolvedReferences,
          IsBareTypeName reference.typeName := by
  have hstarred : (standard.extract "A_EXPORT void f(Widget*const p);").unresolvedReferences =
      [⟨"function f(p)", "Widget*const"⟩] := by decide +kernel
  have hqualifier : (standard.extract "A_EXPORT int f(const int);").unresolvedReferences =
      [⟨"function f(int)", "const"⟩] := by decide +kernel
  refine ⟨hstarred, hqualifier, fun hall => ?_⟩
  have hm := List.mem_singleton_self (⟨"function f(p)", "Widget*const"⟩ : UnresolvedReference)
  obtain ⟨word, (he : "Widget*const" = _)⟩ := (hall .standard false _ _ (hstarred.symm ▸ hm)).word
  have hchars : "Widget*const".toList = word.chars := by rw [he, String.toList_ofList]
  exact word.not_mem (by decide) (hchars ▸ by decide : '*' ∈ word.chars)

end Grammar

end HeaderExports
