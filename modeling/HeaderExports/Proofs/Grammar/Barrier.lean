import HeaderExports.Proofs.Canonical.Characters
import HeaderExports.Proofs.Pattern.Barrier

/-!
# A lone number sign separates declarations

No declaration reaches over a line that holds a number sign and nothing else.
Constants stand on one line. The other declarations may run over line ends, but
hold no number sign and neither begin nor end at a line end.
-/

namespace HeaderExports.Grammar

open Pattern
open Canonical (inBraced inListed_of_mem_function inListed_of_mem_callback
  inBraced_of_mem_aliasedStruct forall_mem_braced forall_mem_alias inBraced_of inAlias_of)
open Text (isBlank isWord append_apart)

/-- A number sign on a line of its own. -/
def barrier : String := "\n#\n"

/-- A text that holds no number sign and neither begins nor ends at a line
end. -/
structure Solid (word : List Char) : Prop where
  /-- The first character is no line end. -/
  begins : ∃ c rest, word = c :: rest ∧ c ≠ '\n'
  /-- The last character is no line end. -/
  ends : ∃ front c, word = front ++ [c] ∧ c ≠ '\n'
  /-- No character is a number sign. -/
  free : '#' ∉ word

/-- A pattern of solid words is separated by a lone number sign. -/
theorem separates_of_solid {p : Pattern Part}
    (hp : ∀ (word : List Char) (marks : Marks Part), Spells p word marks → Solid word) :
    Separates barrier.toList p := by
  intro left right front word behind marks hs he
  obtain ⟨⟨c, rest, hbegins, hc⟩, ⟨init, d, hends, hd⟩, hfree⟩ := hp word marks hs
  have hsign : (left ++ ['\n']) ++ '#' :: '\n' :: right = front ++ (word ++ behind) := by
    rw [← he, List.append_assoc]
    rfl
  rcases append_apart hfree hsign with ⟨s, hl⟩ | ⟨s, hf, hr⟩
  · left
    rcases List.eq_nil_or_concat s with rfl | ⟨s, e, rfl⟩
    · rw [List.append_nil, hends, ← List.append_assoc] at hl
      exact absurd (List.append_singleton_inj.mp hl).2.symm hd
    · rw [List.concat_eq_append, ← List.append_assoc, ← List.append_assoc] at hl
      exact ⟨s, by rw [(List.append_singleton_inj.mp hl).1, List.append_assoc]⟩
  · right
    cases s with
    | nil =>
      rw [hbegins, List.nil_append, List.cons_append] at hr
      exact absurd (List.cons.inj hr).1.symm hc
    | cons e s =>
      rw [List.cons_append] at hr
      refine ⟨s, ?_⟩
      rw [hf, ← (List.cons.inj hr).1, List.append_assoc]
      rfl

/-- A pattern of longer words on one line is separated by a lone number
sign. -/
theorem separates_of_oneLine {p : Pattern Part}
    (hp : ∀ (word : List Char) (marks : Marks Part), Spells p word marks →
      '\n' ∉ word ∧ 1 < word.length) : Separates barrier.toList p := by
  intro left right front word behind marks hs he
  obtain ⟨hline, hlong⟩ := hp word marks hs
  have hfirst : left ++ '\n' :: '#' :: '\n' :: right = front ++ (word ++ behind) := he
  rcases append_apart hline hfirst with hl | ⟨s, rfl, hs⟩
  · exact .inl hl
  · have hsecond : ['#'] ++ '\n' :: right = s ++ (word ++ behind) := hs
    rcases append_apart hline hsecond with ⟨t, ht⟩ | ⟨t, rfl, -⟩
    · have hlength := congrArg List.length ht
      simp only [List.length_append, List.length_singleton] at hlength
      omega
    · exact .inr ⟨t, rfl⟩

/-- A character that stands in no word of a pattern separates its words. -/
theorem separates_of_not_mem {p : Pattern Part} {c : Char}
    (hp : ∀ (word : List Char) (marks : Marks Part), Spells p word marks → c ∉ word) :
    Separates [c] p := by
  intro left right front word behind marks hs he
  rcases append_apart (hp word marks hs) he with hl | ⟨s, hf, -⟩
  · exact .inl hl
  · exact .inr ⟨s, hf⟩

/-! ## The eight patterns -/

/-- A text behind a keyword begins with no line end. -/
theorem begins_of_keyword {keyword : List Char} {c : Char} {more rest : List Char}
    (hk : keyword = c :: more) (hc : c ≠ '\n') :
    ∃ d rest', keyword ++ rest = d :: rest' ∧ d ≠ '\n' :=
  ⟨c, more ++ rest, by rw [hk, List.cons_append], hc⟩

/-- Functions are separated. -/
theorem separates_function (marker : ExportMarker) :
    Separates barrier.toList (functionPattern marker) := by
  refine separates_of_solid fun word marks hs => ?_
  obtain ⟨form, rfl, -⟩ := (writes_functionPattern marker).exists_of_spells hs
  refine ⟨?_, ?_, not_mem_of_forall (inListed_of_mem_function marker form) (by decide)⟩
  · obtain ⟨c, more, hc⟩ := List.exists_cons_of_ne_nil form.announcer.nonempty
    refine begins_of_keyword hc ?_
    rintro rfl
    exact form.announcer.not_mem (c := '\n') (by decide) (hc ▸ List.mem_cons_self)
  · refine ⟨form.head marker ++ '(' :: (form.list.chars ++ [')']), ';', ?_, by decide⟩
    rw [form.text_eq]
    simp only [List.append_assoc, List.cons_append, List.nil_append]

/-- Function pointer types are separated. -/
theorem separates_callback : Separates barrier.toList callbackPattern := by
  refine separates_of_solid fun word marks hs => ?_
  obtain ⟨form, rfl, -⟩ := writes_callbackPattern.exists_of_spells hs
  refine ⟨begins_of_keyword rfl (by decide), ?_,
    not_mem_of_forall (inListed_of_mem_callback form) (by decide)⟩
  refine ⟨form.head ++ '(' :: (('*' :: (form.name.chars ++ [')'])) ++ '(' :: form.list.chars), ')',
    ?_, by decide⟩
  rw [form.text_eq, form.tail_eq]
  simp only [List.append_assoc, List.cons_append, List.nil_append]

/-- Declarations with a body behind a keyword are separated. -/
theorem separates_braced {inside : Char → Bool} {keyword : String} {c : Char} {more : List Char}
    (hk : keyword.toList = c :: more) (hc : c ≠ '\n')
    (hw : keyword.toList.all (fun c => isWord c || isBlank c) = true)
    (hi : ∀ c, inside c = true → inBraced c = true) :
    Separates barrier.toList
      (chain [Pattern.lit keyword, name, blanks, body inside, Pattern.lit ";"]) := by
  obtain ⟨hword, hblank, -, -⟩ := inBraced_of
  refine separates_of_solid fun word marks hs => ?_
  obtain ⟨form, rfl, -⟩ := (@writes_braced inside keyword).exists_of_spells hs
  refine ⟨begins_of_keyword hk hc, ?_, not_mem_of_forall
    (forall_mem_braced form hw hword hblank hi (by decide) (by decide) (by decide)) (by decide)⟩
  refine ⟨form.head keyword ++ '\x7b' :: (form.members.chars ++ ['\x7d']), ';', ?_, by decide⟩
  rw [form.text_eq]
  simp only [List.append_assoc, List.cons_append, List.nil_append]

/-- Type names for tags are separated. -/
theorem separates_alias {keyword : String}
    (hw : keyword.toList.all (fun c => isWord c || isBlank c) = true) :
    Separates barrier.toList (aliasPattern keyword) := by
  obtain ⟨hword, hblank⟩ := inAlias_of
  refine separates_of_solid fun word marks hs => ?_
  obtain ⟨form, rfl, -⟩ := (writes_aliasPattern keyword).exists_of_spells hs
  exact ⟨begins_of_keyword rfl (by decide),
    ⟨form.head keyword, ';', form.text_eq_head keyword, by decide⟩,
    not_mem_of_forall (forall_mem_alias form hw hword hblank (by decide)) (by decide)⟩

/-- Structs with a type name are separated. -/
theorem separates_aliasedStruct : Separates barrier.toList aliasedStructPattern := by
  refine separates_of_solid fun word marks hs => ?_
  obtain ⟨form, rfl, -⟩ := writes_aliasedStructPattern.exists_of_spells hs
  refine ⟨begins_of_keyword rfl (by decide), ?_,
    not_mem_of_forall (inBraced_of_mem_aliasedStruct form) (by decide)⟩
  refine ⟨form.head ++ '\x7b' :: (form.members.chars ++ '\x7d' ::
    (form.behind.chars ++ form.name.chars)), ';', ?_, by decide⟩
  rw [form.text_eq, AliasedStructForm.tail]
  simp only [List.append_assoc, List.cons_append]

/-- The value of a constant stands on one line. -/
theorem ConstantValue.newline_not_mem (value : ConstantValue) : '\n' ∉ value.chars := by
  cases value with
  | word chars => exact chars.not_mem (by decide)
  | literal chars =>
    refine List.not_mem_cons_of_ne_of_not_mem (by decide)
      (List.not_mem_append (fun hm => ?_) (by decide))
    obtain ⟨char, -, hc⟩ := List.mem_flatMap.mp hm
    cases char with
    | plain c free => exact free.2.2 (List.mem_singleton.mp hc).symm
    | escaped c sameLine =>
      rcases List.mem_cons.mp hc with hc | hc
      · exact absurd hc (by decide)
      · exact sameLine (List.mem_singleton.mp hc).symm

/-- A constant stands on one line. -/
theorem ConstantForm.newline_not_mem (form : ConstantForm) : '\n' ∉ form.text := by
  have hname := form.name.not_mem (c := '\n') (by decide)
  have hgap := form.gap.not_mem (c := '\n') (by decide)
  exact List.not_mem_append (by decide)
    (List.not_mem_append hname (List.not_mem_append hgap form.value.newline_not_mem))

/-- Constants are separated by every line end. -/
theorem separates_constant_lines : Separates ['\n'] constantPattern := by
  refine separates_of_not_mem fun word marks hs => ?_
  obtain ⟨form, rfl, -⟩ := writes_constantPattern.exists_of_spells hs
  exact form.newline_not_mem

/-- Constants are separated. -/
theorem separates_constant : Separates barrier.toList constantPattern := by
  refine separates_of_oneLine fun word marks hs => ?_
  obtain ⟨form, rfl, -⟩ := writes_constantPattern.exists_of_spells hs
  refine ⟨form.newline_not_mem, ?_⟩
  have hlong : 1 < "#define ".toList.length := by decide
  unfold ConstantForm.text
  generalize "#define ".toList = front at hlong ⊢
  rw [List.length_append]
  exact Nat.lt_add_right _ hlong

/-- Enumerations are separated. -/
theorem separates_enum : Separates barrier.toList enumPattern :=
  @separates_braced inEnumBody "enum " 'e' _ rfl (by decide) (by decide) inBraced_of.2.2.1

/-- Structs are separated. -/
theorem separates_struct : Separates barrier.toList structPattern :=
  @separates_braced inStructBody "struct " 's' _ rfl (by decide) (by decide) inBraced_of.2.2.2

end HeaderExports.Grammar
