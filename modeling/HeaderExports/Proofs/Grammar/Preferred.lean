import HeaderExports.Proofs.Grammar.Members
import HeaderExports.Proofs.Pattern.Preferred

/-!
# Which readings of members are preferred

In front of a text that does not go on with it, the preferred reading of a
parameter, an enumerator or a field is the one it is written from. A type that
is spelled like the qualifier is taken for it only if a second type stands
behind it.
-/

namespace HeaderExports.Grammar

open Pattern
open Text (isBlank isWord append_before append_run_inj exists_append_singleton first_inj
  isBlank_of_isWord not_isWord_of_isBlank)

/-! ## What a text begins with -/

/-- The first character of a token is of its class. -/
theorem inside_of_head {inside : Char → Bool} (token : Token inside) (rest : List Char) :
    ∀ c ∈ (token.chars ++ rest).head?, inside c = true := by
  intro c hc
  obtain ⟨d, more, hd⟩ := List.exists_cons_of_ne_nil token.nonempty
  rw [hd, List.cons_append, List.head?_cons, Option.mem_some_iff] at hc
  exact token.inside_of_mem c (hd ▸ hc ▸ List.mem_cons_self)

/-- A text begins like what it is made of. -/
theorem forall_mem_head_append {P : Char → Prop} {u rest : List Char} (hu : ∀ c ∈ u, P c)
    (hr : ∀ c ∈ rest.head?, P c) : ∀ c ∈ (u ++ rest).head?, P c := by
  cases u with
  | nil => exact hr
  | cons d u =>
    intro c hc
    rw [List.cons_append, List.head?_cons, Option.mem_some_iff] at hc
    exact hu c (hc ▸ List.mem_cons_self)

/-- A qualified token begins with a character of the token's class, if the
qualifier does. -/
theorem inside_of_qualified {inside : Char → Bool} (hc : inside 'c' = true) (qualified : Bool)
    (token : Token inside) {c : Char} {word rest : List Char}
    (he : c :: word = qualifierText qualified ++ (token.chars ++ rest)) : inside c = true := by
  cases qualified with
  | true => rwa [(List.cons.inj he).1]
  | false => exact inside_of_head token rest c (congrArg List.head? he).symm

/-! ## Parameters -/

/-- No parameter is empty, and each begins with a character of its type. -/
theorem not_spells_parameter :
    (∀ marks : Marks Part, ¬Spells parameterPattern [] marks) ∧
      ∀ c, inParameterType c = false →
        ∀ word marks, ¬Spells parameterPattern (c :: word) marks := by
  constructor
  · exact writes_parameterPattern.not_spells_nil ParameterForm.text_ne_nil
  · intro c hc word marks hs
    obtain ⟨form, he, -⟩ := writes_parameterPattern.exists_of_spells hs
    have hin := inside_of_qualified (by decide) form.qualified form.type he
    rw [hc] at hin
    exact Bool.noConfusion hin

/-- What can be read as a name behind a space. -/
def NameBehindSpace (rest : List Char) : Prop :=
  ∃ c more, rest = ' ' :: c :: more ∧ inParameterName c = true

/-- A parameter without qualifier is not read as the qualifier and another
parameter, if no second name stands behind it. -/
theorem not_spells_qualified_parameter (type : Token inParameterType)
    (name : Token inParameterName) {rest : List Char}
    (hend : ∀ c ∈ rest.head?, inParameterName c = false) (hr : ¬NameBehindSpace rest)
    (word behind : List Char) (marks : Marks Part)
    (he : type.chars ++ (" ".toList ++ name.chars) ++ rest = word ++ behind) :
    ¬Spells (chain [Pattern.lit "const ", .mark .type (plus (.one inParameterType)),
      Pattern.lit " ", .mark .name (plus (.one inParameterName))]) word marks := by
  intro hs
  obtain ⟨x, rfl, -⟩ := (Writes.lit "const " writes_parameter).exists_of_spells hs
  have htext : type.chars ++ ' ' :: (name.chars ++ rest) =
      "const".toList ++ ' ' :: (x.1.chars ++ ' ' :: (x.2.chars ++ behind)) := by
    rw [List.append_assoc, List.append_assoc] at he
    refine he.trans ?_
    simp only [List.append_assoc]
    rfl
  have htype : ' ' ∉ type.chars := type.not_mem (by decide)
  have hconst : ' ' ∉ "const".toList := by decide
  obtain ⟨-, hrest⟩ := first_inj htype hconst htext
  -- the second type would be the name, with the second name behind it
  have hname : ' ' ∉ name.chars := name.not_mem (by decide)
  obtain ⟨s, hs, hb⟩ := append_before hname hrest
  cases s with
  | nil =>
    obtain ⟨c, more, hc⟩ := List.exists_cons_of_ne_nil x.2.nonempty
    rw [hc] at hb
    exact hr ⟨c, more ++ behind, hb, x.2.inside_of_mem c (hc ▸ List.mem_cons_self)⟩
  | cons d s =>
    have hin : inParameterType d = true :=
      x.1.inside_of_mem d (hs ▸ List.mem_append_right _ List.mem_cons_self)
    have hout := hend d (by rw [hb]; rfl)
    rw [inParameterName_of_type hin] at hout
    exact Bool.noConfusion hout

/-- The preferred reading of a parameter is the parameter, if its name does not
go on and no second one stands behind it. -/
theorem prefers_parameterForm (form : ParameterForm) {rest : List Char}
    (hend : ∀ c ∈ rest.head?, inParameterName c = false) (hr : ¬NameBehindSpace rest) :
    Prefers parameterPattern form.text form.parts rest := by
  obtain ⟨qualified, type, name⟩ := form
  have hspace : ∀ c ∈ (" ".toList ++ name.chars ++ rest).head?, inParameterType c = false := by
    intro c hc
    cases hc
    decide
  have hname := (prefers_plus_one name.nonempty name.inside_of_mem hend).mark Part.name
  have htype := (prefers_plus_one type.nonempty type.inside_of_mem hspace).mark Part.type
  have hrest := htype.cons (hname.last.lit " ")
  cases qualified with
  | true => exact (prefers_lit "const " _).optional.cons hrest
  | false =>
    exact hrest.skip fun word behind marks he =>
      not_spells_qualified_parameter type name hend hr word behind marks he

/-! ## Enumerators -/

/-- No enumerator is empty, and each begins with a word character. -/
theorem not_spells_enumerator :
    (∀ marks : Marks Part, ¬Spells enumeratorPattern [] marks) ∧
      ∀ c, isWord c = false → ∀ word marks, ¬Spells enumeratorPattern (c :: word) marks := by
  constructor
  · exact writes_enumeratorPattern.not_spells_nil EnumeratorForm.text_ne_nil
  · intro c hc word marks hs
    obtain ⟨form, he, -⟩ := writes_enumeratorPattern.exists_of_spells hs
    have hin := inside_of_head form.name _ c (congrArg List.head? he).symm
    rw [hc] at hin
    exact Bool.noConfusion hin

/-- A name is read up to the first character of another class. -/
theorem prefers_name (n : Name) {rest : List Char} (hr : ∀ c ∈ rest.head?, isWord c = false) :
    Prefers name n.chars [(.name, n.chars)] rest :=
  (prefers_plus_one n.nonempty n.inside_of_mem hr).mark Part.name

/-- Blanks are read up to the first other character. -/
theorem prefers_blanks (gap : Stretch isBlank) {rest : List Char}
    (hr : ∀ c ∈ rest.head?, isBlank c = false) : Prefers blanks gap.chars [] rest :=
  prefers_star_one gap.inside_of_mem hr

/-- No blanks between two words. -/
def noGap : Stretch isBlank := ⟨[], fun _ hc => absurd hc List.not_mem_nil⟩

/-- Nothing is written for no blanks. -/
@[simp]
theorem chars_noGap : noGap.chars = [] :=
  rfl

/-- No initializer is read in front of anything but an equals sign. -/
theorem prefers_no_initializer {p : List (Pattern Part)} {rest : List Char}
    (hr : ∀ c ∈ rest.head?, c ≠ '=') :
    Prefers (optional (chain (Pattern.lit "=" :: p))) [] [] rest := by
  refine prefers_optional_nil fun word' behind marks' he hs => ?_
  obtain ⟨u, m, v, n, hu, -, rfl, -⟩ := spells_seq_iff.mp hs
  obtain ⟨rfl, -⟩ := spells_exactly_iff.mp hu
  exact hr '=' (by rw [he]; rfl) rfl

/-- What stands in front of a word is no word character if it is blank. -/
theorem not_isWord_of_mem_head (gap : Stretch isBlank) {rest : List Char}
    (hr : ∀ c ∈ rest.head?, isWord c = false) :
    ∀ c ∈ (gap.chars ++ rest).head?, isWord c = false :=
  forall_mem_head_append (fun c hc => (not_isWord_of_isBlank (gap.inside_of_mem c hc)).1) hr

/-- An enumerator without initializer is read with the blanks behind it. -/
theorem prefers_bareEnumerator (name : Name) (gap : Stretch isBlank) {rest : List Char}
    (hr : ∀ c ∈ rest.head?, isWord c = false ∧ isBlank c = false ∧ c ≠ '=') :
    Prefers enumeratorPattern (name.chars ++ gap.chars) [(.name, name.chars)] rest := by
  have hnone := @prefers_no_initializer [blanks, .mark Part.value
    (chain [optional (Pattern.lit "-"), blanks, word])] rest fun c hc => (hr c hc).2.2
  have hblanks := prefers_blanks gap fun c hc => (hr c hc).2.1
  have hname := prefers_name name (not_isWord_of_mem_head gap fun c hc => (hr c hc).1)
  have hgap := hblanks.cons hnone.last
  rw [List.append_nil] at hgap
  exact hname.cons hgap

/-- The value of an enumerator is read up to the first other character. Blanks
belong to it behind a sign only. -/
theorem prefers_value (value : SignedValue) (hsign : value.negative = false → value.gap.chars = [])
    {rest : List Char} (hr : ∀ c ∈ rest.head?, isWord c = false) :
    Prefers (chain [optional (Pattern.lit "-"), blanks, word]) value.chars [] rest := by
  obtain ⟨negative, gap, digits⟩ := value
  have hword : Prefers (chain [word]) digits.chars [] rest :=
    (prefers_plus_one digits.nonempty digits.inside_of_mem hr).last
  have hgap := (prefers_blanks gap fun c hc =>
    isBlank_of_isWord (inside_of_head digits rest c hc)).cons hword
  cases negative with
  | true => exact (prefers_lit "-" _).optional.cons hgap
  | false =>
    refine (prefers_optional_nil fun word' behind marks' he hs => ?_).cons hgap
    obtain ⟨rfl, -⟩ := spells_exactly_iff.mp hs
    rw [hsign rfl, List.nil_append] at he
    exact absurd (inside_of_head digits rest '-' (he ▸ rfl)) (by decide)

/-- A value begins with its sign or its word. -/
theorem SignedValue.not_isBlank_of_head (value : SignedValue)
    (hsign : value.negative = false → value.gap.chars = []) (rest : List Char) :
    ∀ c ∈ (value.chars ++ rest).head?, isBlank c = false := by
  obtain ⟨negative, gap, digits⟩ := value
  cases negative with
  | true =>
    intro c hc
    cases hc
    decide
  | false =>
    have hchars : SignedValue.chars ⟨false, gap, digits⟩ = digits.chars := by
      rw [SignedValue.chars, hsign rfl]
      rfl
    rw [hchars]
    exact fun c hc => isBlank_of_isWord (inside_of_head digits rest c hc)

/-- The preferred reading of an enumerator with a value. -/
theorem prefers_valuedEnumerator (name : Name) (gap before : Stretch isBlank) (value : SignedValue)
    (hsign : value.negative = false → value.gap.chars = []) {rest : List Char}
    (hr : ∀ c ∈ rest.head?, isWord c = false) :
    Prefers enumeratorPattern (EnumeratorForm.text ⟨name, gap, some (before, value)⟩)
      (EnumeratorForm.parts ⟨name, gap, some (before, value)⟩) rest := by
  have hvalue := ((prefers_value value hsign hr).mark Part.value).last
  have hbefore := prefers_blanks before (value.not_isBlank_of_head hsign rest)
  have hinitializer := ((hbefore.cons hvalue).lit "=").optional.last
  have hequals : ∀ c ∈ ("=".toList ++ (before.chars ++ value.chars) ++ rest).head?,
      isWord c = false ∧ isBlank c = false := by
    intro c hc
    cases hc
    decide
  have hgap := prefers_blanks gap fun c hc => (hequals c hc).2
  refine (prefers_name name ?_).cons (hgap.cons hinitializer)
  rw [List.append_assoc]
  exact not_isWord_of_mem_head gap fun c hc => (hequals c hc).1

/-! ## Fields -/

/-- What stands in front of the semicolon of a field. -/
def FieldForm.head (form : FieldForm) : List Char :=
  qualifierText form.qualified ++ (form.type.chars ++ (form.gap.chars ++ form.nameChars))

/-- A field is written from its head and a semicolon. -/
theorem FieldForm.text_eq (form : FieldForm) : form.text = form.head ++ [';'] := by
  rw [text, head]
  simp only [List.append_assoc]
  rfl

/-- No semicolon stands in the head of a field. -/
theorem FieldForm.semicolon_not_mem_head (form : FieldForm) : ';' ∉ form.head := by
  have hqualifier : ';' ∉ qualifierText form.qualified := by cases form.qualified <;> decide
  have htype : ';' ∉ form.type.chars := form.type.not_mem (by decide) (by decide)
  have hgap : ';' ∉ form.gap.chars := form.gap.not_mem (by decide)
  have hname : ';' ∉ form.nameChars :=
    List.not_mem_append (fun h => absurd (List.eq_of_mem_replicate h) (by decide))
      (form.label.not_mem (by decide))
  exact List.not_mem_append hqualifier
    (List.not_mem_append htype (List.not_mem_append hgap hname))

/-- The head of a field holds one name behind one qualified type. -/
theorem FieldForm.head_inj {form form' : FieldForm} {l l' : List Char}
    (he : l ++ form.head = l' ++ form'.head) :
    l ++ (qualifierText form.qualified ++ form.type.chars) =
        l' ++ (qualifierText form'.qualified ++ form'.type.chars) ∧
      form.nameChars = form'.nameChars := by
  obtain ⟨g, z, hg, hz⟩ := exists_append_singleton form.gap.nonempty
  obtain ⟨g', z', hg', hz'⟩ := exists_append_singleton form'.gap.nonempty
  have hblank := form.gap.inside_of_mem z hz
  have hblank' := form'.gap.inside_of_mem z' hz'
  have hsplit : (l ++ (qualifierText form.qualified ++ (form.type.chars ++ g))) ++
        z :: form.nameChars =
      (l' ++ (qualifierText form'.qualified ++ (form'.type.chars ++ g'))) ++
        z' :: form'.nameChars := by
    simpa only [FieldForm.head, hg, hg', List.append_assoc, List.singleton_append] using he
  obtain ⟨hfront, -, hname⟩ := append_run_inj form.not_blank_of_mem_nameChars
    form'.not_blank_of_mem_nameChars (fun h => h hblank) (fun h => h hblank') hsplit
  have hgap : ∀ c ∈ g, isBlank c = true := fun c hc =>
    form.gap.inside_of_mem c (hg ▸ List.mem_append_left _ hc)
  have hgap' : ∀ c ∈ g', isBlank c = true := fun c hc =>
    form'.gap.inside_of_mem c (hg' ▸ List.mem_append_left _ hc)
  have htypes := @gap_behind_inj ⟨g, hgap⟩ ⟨g', hgap'⟩ (l ++ qualifierText form.qualified)
    (l' ++ qualifierText form'.qualified) _ _ form.type.chars_ne_nil form'.type.chars_ne_nil
    form.type.not_blank form'.type.not_blank (by simpa only [List.append_assoc] using hfront)
  exact ⟨by simpa only [List.append_assoc] using htypes, hname⟩

/-- A type that is not qualified is not the qualifier with a type. -/
theorem qualifier_append_ne (type type' : StarredName) :
    "const ".toList ++ type.chars ≠ type'.chars := by
  intro he
  have hspace : ' ' ∈ type'.chars := by
    rw [← he]
    exact List.mem_append_left _ (by decide)
  exact type'.not_mem (by decide) (by decide) hspace

/-- Fields are determined by where they begin. -/
theorem determined_fieldPattern : Determined fieldPattern where
  nonempty := writes_fieldPattern.not_spells_nil FieldForm.text_ne_nil
  same := by
    intro word b word' b' marks marks' hs hs' he
    obtain ⟨form, rfl, rfl⟩ := writes_fieldPattern.exists_of_spells hs
    obtain ⟨form', rfl, rfl⟩ := writes_fieldPattern.exists_of_spells hs'
    rw [form.text_eq, form'.text_eq, List.append_assoc, List.append_assoc] at he
    obtain ⟨hhead, hb⟩ := first_inj form.semicolon_not_mem_head form'.semicolon_not_mem_head he
    obtain ⟨htypes, hname⟩ := @FieldForm.head_inj form form' [] [] hhead
    have htype : form.type.chars = form'.type.chars := by
      rw [List.nil_append, List.nil_append] at htypes
      cases hq : form.qualified <;> cases hq' : form'.qualified <;> rw [hq, hq'] at htypes
      · exact htypes
      · exact absurd htypes.symm (qualifier_append_ne form'.type form.type)
      · exact absurd htypes (qualifier_append_ne form.type form'.type)
      · exact List.append_cancel_left htypes
    rw [FieldForm.parts, FieldForm.parts, htype, hname]
    exact ⟨hb, rfl⟩

/-- No field begins with a character that is in no name. -/
theorem not_spells_field {c : Char} (hc : isWord c = false) (word : List Char)
    (marks : Marks Part) : ¬Spells fieldPattern (c :: word) marks := by
  intro hs
  obtain ⟨form, he, -⟩ := writes_fieldPattern.exists_of_spells hs
  rw [FieldForm.text, StarredName.chars, List.append_assoc] at he
  have hin := inside_of_qualified (by decide) form.qualified form.type.base he
  rw [hc] at hin
  exact Bool.noConfusion hin

end HeaderExports.Grammar
