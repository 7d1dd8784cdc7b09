import Mathlib.Data.List.TakeWhile
import HeaderExports.Declaration.ArraySuffix
import HeaderExports.Proofs.Extraction.WellFormed
import HeaderExports.Proofs.Layout.Fields

/-!
# Names of fields and their array suffixes

A field is left out for its name only if an opening bracket stands in it and it is
not the name of one array of fixed size. So what is kept is plain or such an array,
or it has closing brackets without an opening one. The array suffix and the name in
front of it are found in every name that is kept.
-/

namespace HeaderExports

open Grammar Pattern
open Text (isWord oneLine)

/-! ## Brackets in a name -/

namespace Field

variable {name front : List Char}

/-- Where a bracket does not stand, every character is another one. -/
theorem forall_ne_of_not_mem {bracket : Char} (hn : bracket ∉ name) :
    ∀ c ∈ name, decide (c ≠ bracket) = true :=
  fun _ hc => decide_eq_true (ne_of_mem_of_not_mem hc hn)

/-- A name without an opening bracket stands in front of every bracket. -/
theorem beforeBracket_of_not_mem (hn : '[' ∉ name) : beforeBracket name = name :=
  List.takeWhile_eq_self_iff.mpr (forall_ne_of_not_mem hn)

/-- A name without an opening bracket has no size. -/
theorem betweenBrackets?_of_not_mem (hn : '[' ∉ name) : betweenBrackets? name = none := by
  have hnothing : name.dropWhile (· ≠ '[') = [] :=
    List.dropWhile_eq_nil_iff.mpr (forall_ne_of_not_mem hn)
  rw [betweenBrackets?, hnothing]

/-- The first opening bracket ends what stands in front of it. -/
theorem beforeBracket_append (hf : '[' ∉ front) (behind : List Char) :
    beforeBracket (front ++ '[' :: behind) = front := by
  rw [beforeBracket, List.takeWhile_append_of_pos (forall_ne_of_not_mem hf),
    List.takeWhile_cons_of_neg (by decide), List.append_nil]

/-- A size is found between the first opening bracket and the next closing one. -/
theorem betweenBrackets?_append (hf : '[' ∉ front) {size : List Char} (hs : ']' ∉ size)
    (hne : size ≠ []) (behind : List Char) :
    betweenBrackets? (front ++ '[' :: (size ++ ']' :: behind)) = some size := by
  have hshort : size.length ≠ (size ++ ']' :: behind).length := by
    rw [List.length_append, List.length_cons]
    omega
  rw [betweenBrackets?, List.dropWhile_append_of_pos (forall_ne_of_not_mem hf),
    List.dropWhile_cons_of_neg (by decide)]
  simp only [List.takeWhile_append_of_pos (forall_ne_of_not_mem hs), List.takeWhile_cons_of_neg, ne_eq,
    not_true_eq_false, decide_false, Bool.false_eq_true, not_false_eq_true, List.append_nil,
    List.isEmpty_eq_false_iff.mpr hne, hshort, Bool.or_self, if_false]

/-! ## Kinds of names -/

/-- The name of a field is a word with stars in front, and nothing of it is an array
suffix. -/
structure IsPlain (field : Field) : Prop where
  /-- The stars and the word. -/
  starred : ∃ (stars : ℕ) (word : Name),
    field.name = String.ofList (List.replicate stars '*' ++ word.chars)
  /-- There is no size. -/
  arraySize : field.arraySize? = none
  /-- The base name is all of it. -/
  baseName : field.baseName = field.name

/-- The name of a field is that of one array of fixed size, and its suffix tells the
size. -/
def IsFixedArray (field : Field) : Prop :=
  ∃ form : FixedSizeForm, field.name = String.ofList form.text ∧
    field.arraySize? = some (String.ofList form.size.chars) ∧
    field.baseName = String.ofList (List.replicate form.stars '*' ++ form.base.chars)

/-- The name of a field has a closing bracket and no opening one, so that nothing of
it is an array suffix. -/
structure IsUnopened (field : Field) : Prop where
  /-- A bracket is closed. -/
  closed : ']' ∈ field.name.toList
  /-- No bracket is opened. -/
  notOpened : '[' ∉ field.name.toList
  /-- There is no size. -/
  arraySize : field.arraySize? = none
  /-- The base name is all of it. -/
  baseName : field.baseName = field.name

variable {field : Field}

/-- A field without an opening bracket has no size. -/
theorem arraySize?_of_not_mem (hn : '[' ∉ field.name.toList) : field.arraySize? = none := by
  rw [arraySize?, betweenBrackets?_of_not_mem hn, Option.map_none]

/-- The base name of a field without an opening bracket is all of its name. -/
theorem baseName_of_not_mem (hn : '[' ∉ field.name.toList) : field.baseName = field.name := by
  rw [Field.baseName, beforeBracket_of_not_mem hn, String.ofList_toList]

/-- A bracket is neither a star nor in a word. -/
theorem not_mem_starred {bracket : Char} (hstar : bracket ≠ '*') (hword : isWord bracket = false)
    (stars : ℕ) (word : Name) : bracket ∉ List.replicate stars '*' ++ word.chars := by
  rw [List.mem_append, not_or]
  exact ⟨fun hc => hstar (List.eq_of_mem_replicate hc), word.not_mem hword⟩

/-- A plain name has no closing bracket. -/
theorem IsPlain.not_closed (hp : field.IsPlain) : ']' ∉ field.name.toList := by
  obtain ⟨stars, word, hname⟩ := hp.starred
  rw [hname, String.toList_ofList]
  exact not_mem_starred (by decide) (by decide) stars word

/-- The name of an array has an opening bracket. -/
theorem IsFixedArray.opened (hf : field.IsFixedArray) : '[' ∈ field.name.toList := by
  obtain ⟨form, hname, -⟩ := hf
  rw [hname, String.toList_ofList, FixedSizeForm.text]
  simp

/-- A field whose name is that of one array of fixed size has its suffix. -/
theorem isFixedArray_of_text {form : FixedSizeForm} (hname : field.name = String.ofList form.text) :
    field.IsFixedArray := by
  have htext : field.name.toList = (List.replicate form.stars '*' ++ form.base.chars) ++
      '[' :: (form.size.chars ++ ']' :: []) := by
    rw [hname, String.toList_ofList, FixedSizeForm.text, List.append_assoc]
    rfl
  have hfront : '[' ∉ List.replicate form.stars '*' ++ form.base.chars :=
    not_mem_starred (by decide) (by decide) form.stars form.base
  have hsize : ']' ∉ form.size.chars := form.size.not_mem (by decide)
  refine ⟨form, hname, ?_, ?_⟩
  · rw [arraySize?, htext, betweenBrackets?_append hfront hsize form.size.nonempty, Option.map_some]
  · rw [Field.baseName, htext, beforeBracket_append hfront]

/-- A name of the right shape is of one of the three kinds. -/
theorem kind_of_isFieldName (hname : IsFieldName field.name) :
    field.IsPlain ∨ field.IsFixedArray ∨ field.IsUnopened := by
  by_cases hopen : '[' ∈ field.name.toList
  · obtain ⟨form, hform⟩ := hname.array hopen
    exact .inr (.inl (isFixedArray_of_text hform))
  have hsize := arraySize?_of_not_mem hopen
  have hbase := baseName_of_not_mem hopen
  by_cases hclose : ']' ∈ field.name.toList
  · exact .inr (.inr ⟨hclose, hopen, hsize, hbase⟩)
  obtain ⟨stars, label, hlabel⟩ := hname.starred
  rw [hlabel, String.toList_ofList, List.mem_append, not_or] at hopen hclose
  have hword : ∀ c ∈ label.chars, isWord c = true := fun c hc => by
    have hopened := ne_of_mem_of_not_mem hc hopen.2
    have hclosed := ne_of_mem_of_not_mem hc hclose.2
    simpa [inFieldName, hopened, hclosed] using label.inside_of_mem c hc
  exact .inl ⟨⟨stars, ⟨⟨label.chars, hword⟩, label.nonempty⟩, hlabel⟩, hsize, hbase⟩

end Field

/-! ## Fields of a header -/

namespace Grammar

/-- What is read as a field in the bodies of the structs of a content, whether it is
kept or not. -/
def fieldsRead (grammar : Grammar) (content : String) : List (Occurrence Part) :=
  let places := grammar.structPlaces (grammar.visibleText content.toList)
  (places.bare ++ places.aliased).flatMap fun found => grammar.field.scan (found.part .body)

variable (marker : ExportMarker) (keepsComments : Bool) (content : String)

/-- The fields of a header are those that are read with a supported name. -/
theorem fields_extract :
    ((withMarker marker keepsComments).extract content).fields =
      (((withMarker marker keepsComments).fieldsRead content).filter
          fun found => IsSupportedName (found.part .name)).map
        fun found => ⟨found.leaf .type, found.leaf .name⟩ := by
  have hfields (body : List Char) : (withMarker marker keepsComments).fields body =
      (((withMarker marker keepsComments).field.scan body).filter
          fun found => IsSupportedName (found.part .name)).map
        fun found => ⟨found.leaf .type, found.leaf .name⟩ := by
    refine congrArg (List.map _) (List.filter_congr fun found _ => ?_)
    rw [Bool.eq_iff_iff, decide_eq_true_iff, supportsFieldName_iff]
  rw [Header.fields, fieldsRead, List.flatMap_append, List.filter_append, List.map_append,
    List.filter_flatMap, List.filter_flatMap, List.map_flatMap, List.map_flatMap]
  simp only [extract, declarations, structDecl, aliasedStructDecl, List.flatMap_map, hfields]

/-- A field is kept in a header exactly if its name has no opening bracket or is that
of one array of fixed size. So every field of a struct is a word with stars in front
and without an array suffix, or one array of fixed size whose suffix tells the size,
or its name has a closing bracket and no opening one. All of them are of the first
two kinds exactly if wherever a field is read whose name has a closing bracket, an
opening one stands in it too. -/
theorem kinds_of_fields_extract :
    let header := (withMarker marker keepsComments).extract content
    let read := (withMarker marker keepsComments).fieldsRead content
    header.fields = (read.filter fun found => IsSupportedName (found.part .name)).map
        (fun found => ⟨found.leaf .type, found.leaf .name⟩) ∧
      (∀ field ∈ header.fields, field.IsPlain ∨ field.IsFixedArray ∨ field.IsUnopened) ∧
      ((∀ field ∈ header.fields, field.IsPlain ∨ field.IsFixedArray) ↔
        ∀ found ∈ read, ']' ∈ found.part .name → '[' ∈ found.part .name) := by
  intro header read
  have hfields : header.fields = _ := fields_extract marker keepsComments content
  have hkinds : ∀ field ∈ header.fields,
      field.IsPlain ∨ field.IsFixedArray ∨ field.IsUnopened := fun field hm =>
    Field.kind_of_isFieldName
      ((wellFormed_extract marker keepsComments content).1.fields field hm).name
  have hleaf (found : Occurrence Part) : (found.leaf .name).toList = found.part .name :=
    String.toList_ofList
  refine ⟨hfields, hkinds, fun hall found hm hclose => ?_, fun hopen field hm => ?_⟩
  · by_contra hnot
    have hkept : (⟨found.leaf .type, found.leaf .name⟩ : Field) ∈ header.fields := by
      rw [hfields]
      exact List.mem_map_of_mem (List.mem_filter.mpr
        ⟨hm, decide_eq_true fun ho => absurd ho hnot⟩)
    rw [← hleaf found] at hnot hclose
    rcases hall _ hkept with hplain | harray
    · exact hplain.not_closed hclose
    · exact hnot harray.opened
  · rcases hkinds field hm with hplain | harray | hstray
    · exact .inl hplain
    · exact .inr harray
    rw [hfields] at hm
    obtain ⟨found, hkept, rfl⟩ := List.mem_map.mp hm
    have hname := hopen found (List.mem_of_mem_filter hkept)
    rw [← hleaf found] at hname
    exact absurd (hname hstray.closed) hstray.notOpened

/-- An array whose size stands apart from its brackets is read as a field whose type
is the size and whose name is the closing bracket, and that field is kept. -/
theorem field_of_spaced_brackets :
    let content := "struct S \x7b char buf[ 16 ]; \x7d;"
    ((standard.extract content).structs = [⟨"S", [⟨"16", "]"⟩]⟩] ∧
      (standard.extract content).aliasedStructs = []) ∧
    ¬∀ (marker : ExportMarker) (keepsComments : Bool) (content : String),
      ∀ field ∈ ((withMarker marker keepsComments).extract content).fields,
        field.IsPlain ∨ field.IsFixedArray := by
  intro content
  have hfields : (standard.extract content).structs = [⟨"S", [⟨"16", "]"⟩]⟩] ∧
      (standard.extract content).aliasedStructs = [] := by decide +kernel
  refine ⟨hfields, fun hall => ?_⟩
  have hm : (⟨"16", "]"⟩ : Field) ∈ (standard.extract content).fields := by
    rw [Header.fields, hfields.1, hfields.2]
    decide
  rcases hall .standard false content _ hm with hplain | harray
  · exact hplain.not_closed (by decide)
  · exact absurd harray.opened (by decide)

end Grammar

end HeaderExports
