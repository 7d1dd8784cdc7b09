import HeaderExports.Proofs.Enums.Segments
import HeaderExports.Proofs.Pattern.Reached
import HeaderExports.Proofs.Text.BrokenWords

/-!
# Types and names of members stand uncut

The types and names that are read of parameters and fields, and the names of
enumerators, begin and end inside of no word of their list or body. Behind, each is
followed by a character of another class, or it is read as far as its class goes. In
front, a member could as well have been read one character earlier, if that is a word
character, and the members before go as far as their words do.
-/

namespace HeaderExports

open Grammar Pattern
open Text (StandsIn Uncut isBlank isWord oneLine oneLine_of_not_blank uncut_before_blanks
  uncut_behind_blanks uncut_concat uncut_cons uncut_of_getLast? uncut_of_head?)

namespace Text

variable {left right : List Char}

/-- Whether a word goes on is told by the beginning of what stands behind. -/
theorem Uncut.left_of_append {more : List Char} (hu : Uncut left (right ++ more)) :
    Uncut left right := by
  intro c hc d hd
  refine hu c hc d ?_
  obtain ⟨rest, rfl⟩ := List.head?_eq_some_iff.mp hd
  rfl

end Text

namespace Pattern

variable {σ : Type} {p : Pattern σ}

/-- A scan comes to no place inside of a word, if it leaves no word that it reads and
could read from a word character in front of the place. -/
theorem Reached.uncut {front rest : List Char} (hr : Reached p front rest)
    (hbefore : ∀ c, isWord c = true →
      ∃ word behind marks, c :: rest = word ++ behind ∧ Spells p word marks)
    (hbehind : ∀ word marks, first? p (word ++ rest) = some (marks, rest) → Uncut word rest) :
    Uncut front rest := by
  cases hr with
  | start => exact uncut_of_getLast? fun c hc => absurd hc (Option.not_mem_none c)
  | @passed front c _ unreadable =>
    refine uncut_of_getLast? fun d hd => ?_
    rw [List.getLast?_concat, Option.mem_some_iff] at hd
    subst hd
    rw [← Bool.not_eq_true]
    intro hword
    have hread := (first?_isSome_iff p (c :: rest)).mpr (hbefore c hword)
    rw [unreadable] at hread
    exact Bool.false_ne_true hread
  | @behind front word _ marks nonempty read =>
    intro c hc
    rw [List.getLast?_append_of_ne_nil _ nonempty] at hc
    exact hbehind word marks read c hc

end Pattern

namespace Grammar

/-- A type is uncut behind its qualifier, or without one where a scan comes to it. -/
theorem uncut_qualified {front type : List Char} (qualified : Bool)
    (hu : qualified = false → Uncut front type) :
    Uncut (front ++ qualifierText qualified) type := by
  cases qualified with
  | false =>
    rw [qualifierText, if_neg Bool.false_ne_true, List.append_nil]
    exact hu rfl
  | true =>
    refine uncut_of_getLast? fun c hc => ?_
    rw [List.getLast?_append_of_ne_nil _ (by decide)] at hc
    cases hc
    decide

/-! ## Parameters -/

/-- A parameter is read to the end of its name. -/
theorem greedy_parameterPattern : Greedy inParameterName parameterPattern :=
  ((((greedy_plus_one inParameterName).mark Part.name).last.seq _).seq _).seq _

/-- Where the name of a parameter ends, no word goes on. -/
theorem not_isWord_of_not_inParameterName {c : Char} (hc : inParameterName c = false) :
    isWord c = false := by
  rw [← Bool.not_eq_true] at hc ⊢
  exact fun hw => hc (by simp [inParameterName, hw])

/-- A scan comes to no parameter inside of its type. -/
theorem uncut_parameterType {front behind : List Char} {form : ParameterForm}
    (hr : Reached parameterPattern front (form.text ++ behind)) :
    Uncut (front ++ qualifierText form.qualified) form.type.chars := by
  obtain ⟨qualified, type, name⟩ := form
  have htext (type : Token inParameterType) : ParameterForm.text ⟨false, type, name⟩ ++ behind =
      type.chars ++ ' ' :: (name.chars ++ behind) := by
    simp only [ParameterForm.text, List.append_assoc]
    rfl
  refine uncut_qualified qualified fun hq => ?_
  rw [hq, htext] at hr
  refine Uncut.left_of_append (hr.uncut (fun c hc => ?_) fun word marks hread => ?_)
  · -- the parameter with a longer type could be read in front of the place
    let longer : Token inParameterType := ⟨⟨c :: type.chars, List.forall_mem_cons.mpr
      ⟨by simp [inParameterType, hc], type.inside_of_mem⟩⟩, List.cons_ne_nil _ _⟩
    exact ⟨_, behind, _, (htext longer).symm, writes_parameterPattern.spells _⟩
  · exact uncut_of_head? fun d hd => not_isWord_of_not_inParameterName
      (greedy_parameterPattern _ _ hread d hd)

/-- The type and the name of a parameter stand uncut in their list. -/
theorem standsIn_parameters (marker : ExportMarker) (keepsComments : Bool) (list : List Char) :
    ∀ parameter ∈ (withMarker marker keepsComments).parameters list,
      StandsIn parameter.type.toList list ∧ StandsIn parameter.name.toList list := by
  refine List.forall_mem_map.mpr ?_
  rintro ⟨span, marks⟩ hm
  obtain ⟨front, form, behind, rfl, (rfl : marks = form.parts), hread, hreached⟩ :=
    writes_parameterPattern.exists_reached ParameterForm.text_ne_nil hm
  change StandsIn (String.ofList (oneLine form.type.chars)).toList _ ∧
    StandsIn (String.ofList (oneLine form.name.chars)).toList _
  rw [String.toList_ofList, String.toList_ofList, oneLine_parameterType, oneLine_parameterName]
  refine ⟨⟨front ++ qualifierText form.qualified, ' ' :: (form.name.chars ++ behind), ?_,
      uncut_parameterType hreached, uncut_cons (by decide) _⟩,
    (front ++ (qualifierText form.qualified ++ form.type.chars)) ++ [' '], behind, ?_,
    uncut_concat (by decide) _, uncut_of_head? fun c hc => ?_⟩
  · simp only [ParameterForm.text, List.append_assoc]
    rfl
  · simp only [ParameterForm.text, List.append_assoc]
    rfl
  · exact not_isWord_of_not_inParameterName (greedy_parameterPattern _ _ hread c hc)

/-! ## Fields -/

/-- A scan comes to no field inside of its type. -/
theorem uncut_fieldType {front behind : List Char} {form : FieldForm}
    (hr : Reached fieldPattern front (form.text ++ behind)) :
    Uncut (front ++ qualifierText form.qualified) form.type.chars := by
  obtain ⟨qualified, type, gap, stars, label⟩ := form
  have htext (type : StarredName) : FieldForm.text ⟨false, type, gap, stars, label⟩ ++ behind =
      type.chars ++ (gap.chars ++
        (FieldForm.nameChars ⟨false, type, gap, stars, label⟩ ++ ';' :: behind)) := by
    simp only [FieldForm.text, List.append_assoc]
    rfl
  refine uncut_qualified qualified fun hq => ?_
  rw [hq, htext] at hr
  refine Uncut.left_of_append (hr.uncut (fun c hc => ?_) fun word marks hread => ?_)
  · -- the field with a longer type could be read in front of the place
    let base : Name := ⟨⟨c :: type.base.chars, List.forall_mem_cons.mpr
      ⟨hc, type.base.inside_of_mem⟩⟩, List.cons_ne_nil _ _⟩
    exact ⟨_, behind, _, (htext ⟨base, type.stars⟩).symm, writes_fieldPattern.spells _⟩
  · obtain ⟨word', he, hs⟩ := spells_of_first? hread
    obtain rfl := List.append_cancel_right he
    obtain ⟨other, rfl, -⟩ := writes_fieldPattern.exists_of_spells hs
    rw [other.text_eq]
    exact uncut_concat (by decide) _

/-- The type and the name of a field stand uncut in their body. -/
theorem standsIn_fields (marker : ExportMarker) (keepsComments : Bool) (body : List Char) :
    ∀ field ∈ (withMarker marker keepsComments).fields body,
      StandsIn field.type.toList body ∧ StandsIn field.name.toList body := by
  refine List.forall_mem_map.mpr ?_
  rintro ⟨span, marks⟩ hm
  obtain ⟨front, form, behind, rfl, (rfl : marks = form.parts), -, hreached⟩ :=
    writes_fieldPattern.exists_reached FieldForm.text_ne_nil (List.mem_of_mem_filter hm)
  change StandsIn (String.ofList (oneLine form.type.chars)).toList _ ∧
    StandsIn (String.ofList (oneLine form.nameChars)).toList _
  rw [String.toList_ofList, String.toList_ofList, oneLine_of_not_blank form.type.not_blank,
    form.oneLine_nameChars]
  refine ⟨⟨front ++ qualifierText form.qualified,
      form.gap.chars ++ (form.nameChars ++ ';' :: behind), ?_, uncut_fieldType hreached,
      uncut_before_blanks form.gap.nonempty form.gap.inside_of_mem _⟩,
    (front ++ (qualifierText form.qualified ++ form.type.chars)) ++ form.gap.chars,
    ';' :: behind, ?_, uncut_behind_blanks form.gap.nonempty form.gap.inside_of_mem _,
    uncut_cons (by decide) _⟩
  · simp only [FieldForm.text, List.append_assoc]
    rfl
  · simp only [FieldForm.text, List.append_assoc]
    rfl

/-! ## Enumerators -/

/-- What stands behind the name of an enumerator. -/
def EnumeratorForm.tail (form : EnumeratorForm) : List Char :=
  form.gap.chars ++ form.value.elim [] fun value => "=".toList ++ (value.1.chars ++ value.2.chars)

/-- An initializer is read to the end of its word. -/
theorem greedy_initializer :
    Greedy isWord (chain [Pattern.lit "=", blanks,
      .mark Part.value (chain [optional (Pattern.lit "-"), blanks, word])]) :=
  (((((greedy_plus_one isWord).last.seq _).seq _).mark Part.value).last.seq _).seq _

/-- The name of an enumerator is read to its end. -/
theorem not_isWord_behind_name {form : EnumeratorForm} {behind : List Char}
    (hr : first? enumeratorPattern (form.text ++ behind) = some (form.parts, behind)) :
    ∀ c ∈ (form.tail ++ behind).head?, isWord c = false := by
  have htext : form.text ++ behind = form.name.chars ++ (form.tail ++ behind) :=
    List.append_assoc _ _ _
  obtain ⟨c, more, hname⟩ := List.exists_cons_of_ne_nil form.name.nonempty
  have hc : isWord c = true := form.name.inside_of_mem c (hname ▸ List.mem_cons_self)
  obtain ⟨whole, rest, he, hrest⟩ := exists_name_append hc (more ++ (form.tail ++ behind))
  rw [htext, hname, List.cons_append, he] at hr
  obtain ⟨form', behind', -, hr', hname'⟩ := exists_first?_enumerator whole hrest
  rw [hr', Option.some_inj] at hr
  have hsame : form'.name.chars = form.name.chars :=
    (Prod.mk.inj (List.cons.inj (Prod.mk.inj hr).1).1).2
  rw [← List.cons_append, ← hname, ← hsame, hname'] at he
  rwa [List.append_cancel_left he]

/-- Where an enumerator has been read no word goes on. -/
theorem uncut_behind_enumerator {text rest : List Char} {marks : Marks Part}
    (hr : first? enumeratorPattern (text ++ rest) = some (marks, rest)) : Uncut text rest := by
  obtain ⟨text', he, hs⟩ := spells_of_first? hr
  obtain rfl := List.append_cancel_right he
  obtain ⟨form, rfl, (rfl : marks = form.parts)⟩ := writes_enumeratorPattern.exists_of_spells hs
  obtain ⟨u, behind, m, m', hu, hname, hbehind, hm⟩ := exists_of_first?_seq hr
  obtain ⟨v, behind', n, n', hv, hgap, hlast, hn⟩ := exists_of_first?_seq hbehind
  rw [first?_last] at hlast
  rcases first?_optional_cases hlast with hvalue | hnone
  · exact uncut_of_head? (greedy_initializer _ _ hvalue)
  · -- nothing is read behind the blanks, so that they or the name stand at the end
    obtain ⟨rfl, hrest⟩ := Prod.mk.inj hnone
    obtain ⟨whole, rfl, rfl⟩ := writes_name.exists_of_spells hname
    obtain ⟨gap, rfl, rfl⟩ := (Writes.stretch isBlank).exists_of_spells hgap
    replace hrest : rest = behind' := hrest
    rw [hv, ← hrest, ← List.append_assoc] at hu
    have htext := List.append_cancel_right hu
    by_cases hgap : gap.chars = []
    · have hsame : form.name.chars = whole.chars := (Prod.mk.inj (List.cons.inj hm).1).2
      have hwhole : form.name.chars ++ form.tail = whole.chars := by
        rw [hgap, List.append_nil] at htext
        exact htext
      rw [hsame, List.append_right_eq_self] at hwhole
      have hend := not_isWord_behind_name hr
      rw [hwhole, List.nil_append] at hend
      exact uncut_of_head? hend
    · rw [htext]
      exact uncut_behind_blanks hgap gap.inside_of_mem _

/-- The name of an enumerator stands uncut in its body. -/
theorem standsIn_enumerators (marker : ExportMarker) (keepsComments : Bool) (body : List Char) :
    ∀ enumerator ∈ (withMarker marker keepsComments).enumerators body,
      StandsIn enumerator.name.toList body := by
  refine List.forall_mem_map.mpr ?_
  rintro ⟨span, marks⟩ hm
  obtain ⟨front, form, behind, rfl, (rfl : marks = form.parts), hread, hreached⟩ :=
    writes_enumeratorPattern.exists_reached EnumeratorForm.text_ne_nil hm
  have hname : (Occurrence.leaf ⟨span, form.parts⟩ .name).toList = form.name.chars := by
    obtain ⟨name, gap, _ | value⟩ := form <;>
      exact String.toList_ofList.trans (oneLine_name name)
  have htext : form.text ++ behind = form.name.chars ++ (form.tail ++ behind) :=
    List.append_assoc _ _ _
  rw [hname]
  have hstart : Uncut front (form.text ++ behind) := by
    refine hreached.uncut (fun c hc => ?_) fun _ _ => uncut_behind_enumerator
    let single : Name := ⟨⟨[c], List.forall_mem_singleton.mpr hc⟩, List.cons_ne_nil _ _⟩
    exact ⟨_, form.text ++ behind, _, rfl,
      writes_enumeratorPattern.spells ⟨single, noGap, none⟩⟩
  rw [htext] at hstart ⊢
  exact ⟨front, form.tail ++ behind, rfl, hstart.left_of_append,
    uncut_of_head? (not_isWord_behind_name hread)⟩

end Grammar

end HeaderExports
