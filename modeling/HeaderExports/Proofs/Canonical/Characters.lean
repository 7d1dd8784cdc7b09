import HeaderExports.Proofs.Canonical.Declarations
import HeaderExports.Proofs.Grammar.Determined
import HeaderExports.Proofs.Text.Comments

/-!
# The characters of canonical lines

Which characters a canonical line may hold depends on its kind alone, and so
does what it begins with: a word, a space and another word. A declaration that
is not finished on the line before can therefore not go on in it.
-/

namespace HeaderExports.Canonical

open Grammar Pattern
open Text (isBlank isWord stripComments stripComments_of_inert forall_isInert append_before
  not_isWord_of_isBlank)

/-! ## What a line may hold -/

/-- The characters of lines with a parameter list. -/
def inListed (c : Char) : Bool :=
  inParameterList c || isMarkerChar c || c == '(' || c == ')' || c == ';'

/-- The characters of lines with a body. -/
def inBraced (c : Char) : Bool := inEnumBody c || inStructBody c || c == '\x7b' || c == '\x7d'

/-- The characters of type names for tags. -/
def inAlias (c : Char) : Bool := isWord c || isBlank c || c == ';'

/-- The characters of constants. -/
def inConstant (c : Char) : Bool := isWord c || isBlank c || c == '#'

/-- The characters that a line of the kind of a declaration may hold. -/
def Declaration.mayHold : Declaration → Char → Bool
  | function .. | callback .. => inListed
  | enum .. | struct .. | aliasedStruct .. => inBraced
  | enumAlias .. | structAlias .. => inAlias
  | constant .. => inConstant

section Hold

variable {P : Char → Prop}

/-- What holds of word characters and blanks holds of a given text of them. -/
theorem forall_mem_toList {given : String} (hw : ∀ c, isWord c = true → P c)
    (hb : ∀ c, isBlank c = true → P c)
    (hg : given.toList.all (fun c => isWord c || isBlank c) = true) :
    ∀ c ∈ given.toList, P c := by
  intro c hc
  rcases Bool.or_eq_true_iff.mp (List.all_eq_true.mp hg c hc) with h | h
  · exact hw c h
  · exact hb c h

/-- What holds of word characters, stars and spaces holds of return types. -/
theorem forall_mem_returnType (type : ReturnType) (hw : ∀ c, isWord c = true → P c)
    (hb : ∀ c, isBlank c = true → P c) (hs : P '*') : ∀ c ∈ type.chars, P c := by
  refine List.forall_mem_append.mpr ⟨?_, fun c hc => ?_⟩
  · cases type.qualified with
    | true => exact forall_mem_toList hw hb (by decide)
    | false => exact List.forall_mem_nil _
  · rcases type.starred.of_mem hc with h | rfl
    · exact hw c h
    · exact hs

/-- What holds of word characters, blanks, braces, semicolons and the members
of a body holds of declarations with such a body. -/
theorem forall_mem_braced {inside : Char → Bool} (form : BracedForm inside) {keyword : String}
    (hk : keyword.toList.all (fun c => isWord c || isBlank c) = true)
    (hw : ∀ c, isWord c = true → P c) (hb : ∀ c, isBlank c = true → P c)
    (hi : ∀ c, inside c = true → P c) (ho : P '\x7b') (hc : P '\x7d') (hs : P ';') :
    ∀ c ∈ form.text keyword, P c := by
  have hname : ∀ c ∈ form.name.chars, P c := fun c h => hw c (form.name.inside_of_mem c h)
  have hgap : ∀ c ∈ form.gap.chars, P c := fun c h => hb c (form.gap.inside_of_mem c h)
  have hmembers : ∀ c ∈ form.members.chars, P c :=
    fun c h => hi c (form.members.inside_of_mem c h)
  simp only [BracedForm.text, List.forall_mem_append, List.forall_mem_cons]
  exact ⟨forall_mem_toList hw hb hk, hname, hgap, ho, hmembers, hc, hs, List.forall_mem_nil _⟩

/-- What holds of word characters, blanks and semicolons holds of type names. -/
theorem forall_mem_alias (form : AliasForm) {keyword : String}
    (hk : keyword.toList.all (fun c => isWord c || isBlank c) = true)
    (hw : ∀ c, isWord c = true → P c) (hb : ∀ c, isBlank c = true → P c) (hs : P ';') :
    ∀ c ∈ form.text keyword, P c := by
  have htag : ∀ c ∈ form.tag.chars, P c := fun c h => hw c (form.tag.inside_of_mem c h)
  have hname : ∀ c ∈ form.name.chars, P c := fun c h => hw c (form.name.inside_of_mem c h)
  have hspace : P ' ' := hb ' ' (by decide)
  have hfront : ∀ c ∈ aliasFront keyword, P c :=
    List.forall_mem_append.mpr ⟨forall_mem_toList hw hb (by decide), forall_mem_toList hw hb hk⟩
  simp only [AliasForm.text_eq, List.forall_mem_append, List.forall_mem_cons]
  exact ⟨hfront, hspace, htag, hspace, hname, hs, List.forall_mem_nil _⟩

end Hold

/-- What a line with a parameter list holds. -/
theorem inListed_of :
    (∀ c, isWord c = true → inListed c = true) ∧ (∀ c, isBlank c = true → inListed c = true) ∧
      (∀ c, inParameterList c = true → inListed c = true) ∧
      ∀ c, isMarkerChar c = true → inListed c = true := by
  have hlist (c : Char) (h : inParameterList c = true) : inListed c = true := by
    simp only [inListed, h, Bool.true_or]
  refine ⟨fun c h => hlist c ?_, fun c h => hlist c ?_, hlist, fun c h => ?_⟩
  · simp only [inParameterList, h, Bool.true_or]
  · simp only [inParameterList, h, Bool.or_true]
  · simp only [inListed, h, Bool.true_or, Bool.or_true]

/-- What a line with a body holds. -/
theorem inBraced_of :
    (∀ c, isWord c = true → inBraced c = true) ∧ (∀ c, isBlank c = true → inBraced c = true) ∧
      (∀ c, inEnumBody c = true → inBraced c = true) ∧
      ∀ c, inStructBody c = true → inBraced c = true := by
  have henum (c : Char) (h : inEnumBody c = true) : inBraced c = true := by
    simp only [inBraced, h, Bool.true_or]
  refine ⟨fun c h => henum c (inBody_of_isWord h).1, fun c h => henum c ?_, henum, fun c h => ?_⟩
  · simp only [inEnumBody, h, Bool.or_true]
  · simp only [inBraced, h, Bool.true_or, Bool.or_true]

/-- What a type name for a tag holds. -/
theorem inAlias_of :
    (∀ c, isWord c = true → inAlias c = true) ∧ ∀ c, isBlank c = true → inAlias c = true := by
  refine ⟨fun c h => ?_, fun c h => ?_⟩
  all_goals simp only [inAlias, h, Bool.true_or, Bool.or_true]

/-- A function holds what lines with a parameter list hold. -/
theorem inListed_of_mem_function (marker : ExportMarker) (form : FunctionForm) :
    ∀ c ∈ form.text marker, inListed c = true := by
  obtain ⟨hw, hb, hl, hm⟩ := inListed_of
  simp only [FunctionForm.text, List.forall_mem_append, List.forall_mem_cons]
  exact ⟨fun c h => hw c (form.announcer.inside_of_mem c h),
    fun c h => hm c (List.all_eq_true.mp marker.fragment c h), hb ' ' (by decide),
    forall_mem_returnType form.type hw hb (by decide), hb ' ' (by decide),
    fun c h => hw c (form.name.inside_of_mem c h), by decide,
    fun c h => hl c (form.list.inside_of_mem c h), by decide, by decide, List.forall_mem_nil _⟩

/-- A function pointer type holds what lines with a parameter list hold. -/
theorem inListed_of_mem_callback (form : CallbackForm) : ∀ c ∈ form.text, inListed c = true := by
  obtain ⟨hw, hb, hl, -⟩ := inListed_of
  have hfront : ∀ c ∈ form.head, inListed c = true :=
    List.forall_mem_append.mpr ⟨forall_mem_toList hw hb (by decide), List.forall_mem_append.mpr
      ⟨forall_mem_returnType form.type hw hb (by decide),
        fun c h => hb c (form.gap.inside_of_mem c h)⟩⟩
  simp only [CallbackForm.text_eq, CallbackForm.tail, List.forall_mem_append,
    List.forall_mem_cons]
  exact ⟨hfront, by decide, by decide, fun c h => hw c (form.name.inside_of_mem c h), by decide,
    by decide, fun c h => hl c (form.list.inside_of_mem c h), by decide, List.forall_mem_nil _⟩

/-- A struct with a type name holds what lines with a body hold. -/
theorem inBraced_of_mem_aliasedStruct (form : AliasedStructForm) :
    ∀ c ∈ form.text, inBraced c = true := by
  obtain ⟨hw, hb, -, hs⟩ := inBraced_of
  have hkeyword : ∀ c ∈ "typedef struct".toList, inBraced c = true :=
    forall_mem_toList hw hb (by decide)
  have htag : ∀ c ∈ form.tagText, inBraced c = true := by
    unfold AliasedStructForm.tagText
    cases form.tag with
    | none => exact List.forall_mem_nil _
    | some tag =>
      exact List.forall_mem_append.mpr ⟨fun c h => hb c (tag.1.inside_of_mem c h),
        fun c h => hw c (tag.2.inside_of_mem c h)⟩
  unfold AliasedStructForm.text
  generalize "typedef struct".toList = keyword at hkeyword ⊢
  simp only [List.forall_mem_append, List.forall_mem_cons]
  exact ⟨hkeyword, htag, fun c h => hb c (form.gap.inside_of_mem c h), by decide,
    fun c h => hs c (form.members.inside_of_mem c h), by decide,
    fun c h => hb c (form.behind.inside_of_mem c h),
    fun c h => hw c (form.name.inside_of_mem c h), by decide, List.forall_mem_nil _⟩

/-- A line holds only characters that its kind may hold. -/
theorem Declaration.mayHold_of_mem_line (marker : ExportMarker) (declaration : Declaration) :
    ∀ c ∈ declaration.line marker, declaration.mayHold c = true := by
  obtain ⟨hw, hb, he, hs⟩ := inBraced_of
  obtain ⟨haw, hab⟩ := inAlias_of
  have hopen : inBraced '\x7b' = true := by decide
  have hclose : inBraced '\x7d' = true := by decide
  have hend : inBraced ';' = true := by decide
  have haend : inAlias ';' = true := by decide
  refine List.forall_mem_append.mpr ⟨?_, ?_⟩
  · cases declaration with
    | function => exact inListed_of_mem_function marker _
    | callback => exact inListed_of_mem_callback _
    | enum => exact forall_mem_braced _ (by decide) hw hb he hopen hclose hend
    | struct => exact forall_mem_braced _ (by decide) hw hb hs hopen hclose hend
    | enumAlias => exact forall_mem_alias _ (by decide) haw hab haend
    | structAlias => exact forall_mem_alias _ (by decide) haw hab haend
    | aliasedStruct => exact inBraced_of_mem_aliasedStruct _
    | constant name value =>
      have hword (n : Name) : ∀ c ∈ n.chars, inConstant c = true := by
        intro c h
        simp only [inConstant, n.inside_of_mem c h, Bool.true_or]
      have hkeyword : "#define ".toList.all inConstant = true := by decide
      exact List.forall_mem_append.mpr ⟨List.all_eq_true.mp hkeyword, List.forall_mem_append.mpr
        ⟨hword name, List.forall_mem_cons.mpr ⟨(by decide : inConstant ' ' = true), hword value⟩⟩⟩
  · have hnewline : ∀ (P : Char → Prop), P '\n' → ∀ c ∈ ['\n'], P c := by
      intro P hP c hc
      rwa [List.mem_singleton.mp hc]
    cases declaration with
    | callback =>
      exact List.forall_mem_cons.mpr
        ⟨(by decide : inListed ';' = true), hnewline (inListed · = true) (by decide)⟩
    | function => exact hnewline (inListed · = true) (by decide)
    | constant => exact hnewline (inConstant · = true) (by decide)
    | enum | struct | aliasedStruct => exact hnewline (inBraced · = true) (by decide)
    | enumAlias | structAlias => exact hnewline (inAlias · = true) (by decide)

/-- What a line may not hold does not stand in it. -/
theorem Declaration.not_mem_line (marker : ExportMarker) (declaration : Declaration) {c : Char}
    (hc : declaration.mayHold c = false) : c ∉ declaration.line marker := by
  intro hm
  rw [declaration.mayHold_of_mem_line marker c hm] at hc
  exact Bool.noConfusion hc

/-! ## What a line begins with -/

/-- A character that is no blank and opens neither a list nor a body. -/
def isPlain (c : Char) : Bool := !isBlank c && c != '(' && c != '\x7b'

/-- A text that goes on with a new declaration or ends: its first word is
followed by a space and another word. -/
def Fresh (text : List Char) : Prop :=
  text = [] ∨ ∃ word c rest, text = word ++ ' ' :: c :: rest ∧ word ≠ [] ∧
    (∀ d ∈ word, isPlain d = true) ∧ isPlain c = true

/-- Word characters and marker characters are plain. -/
theorem isPlain_of {c : Char} (hc : isWord c = true ∨ isMarkerChar c = true) :
    isPlain c = true := by
  have hne (d : Char) (hd : isWord d = false ∧ isMarkerChar d = false) : c ≠ d := by
    rintro rfl
    rw [hd.1, hd.2] at hc
    exact hc.elim Bool.noConfusion Bool.noConfusion
  have hblank : isBlank c = false := by
    rw [← Bool.not_eq_true]
    intro hb
    exact hne c (not_isWord_of_isBlank hb) rfl
  have hopen : c ≠ '(' := hne '(' (by decide)
  have hbrace : c ≠ '\x7b' := hne '\x7b' (by decide)
  simp only [isPlain, hblank, Bool.not_false, Bool.true_and, bne_iff_ne, Bool.and_eq_true]
  exact ⟨hopen, hbrace⟩

/-- A text with a plain word in front is fresh if another word follows. -/
theorem fresh_append {word next : List Char} (hne : word ≠ [])
    (hw : ∀ d ∈ word, isPlain d = true) (hn : ∀ d ∈ next, isPlain d = true) (hx : next ≠ [])
    (rest : List Char) : Fresh (word ++ ' ' :: (next ++ rest)) := by
  obtain ⟨c, more, rfl⟩ := List.exists_cons_of_ne_nil hx
  exact .inr ⟨word, c, more ++ rest, rfl, hne, hw, hn c List.mem_cons_self⟩

/-- The characters of a name are plain. -/
theorem isPlain_of_mem_name (n : Name) : ∀ c ∈ n.chars, isPlain c = true :=
  fun c hc => isPlain_of (.inl (n.inside_of_mem c hc))

/-- A plain word in front of a return type is fresh. -/
theorem fresh_returnType {word : List Char} (hne : word ≠ [])
    (hw : ∀ d ∈ word, isPlain d = true) (type : ReturnType) (rest : List Char) :
    Fresh (word ++ ' ' :: (type.chars ++ rest)) := by
  obtain ⟨qualified, base, stars⟩ := type
  simp only [ReturnType.chars, StarredName.chars, List.append_assoc]
  cases qualified with
  | true =>
    have hconst : "const".toList.all isPlain = true := by decide
    exact fresh_append hne hw (List.all_eq_true.mp hconst) (List.cons_ne_nil 'c' _) _
  | false => exact fresh_append hne hw (isPlain_of_mem_name base) base.nonempty _

/-- Every line begins with a word, a space and another word. -/
theorem Declaration.fresh_line (marker : ExportMarker) (declaration : Declaration)
    (after : List Char) : Fresh (declaration.line marker ++ after) := by
  have hplain (given : String) (hg : given.toList.all isPlain = true) :
      ∀ c ∈ given.toList, isPlain c = true := List.all_eq_true.mp hg
  have hnil (given : String) (hg : given.toList.isEmpty = false) : given.toList ≠ [] := by
    rwa [← List.isEmpty_eq_false_iff]
  unfold line text
  rw [List.append_assoc]
  cases declaration with
  | function announcer type name parameters =>
    have hword : ∀ c ∈ announcer.chars ++ marker.text.toList, isPlain c = true :=
      List.forall_mem_append.mpr ⟨isPlain_of_mem_name announcer,
        fun c hc => isPlain_of (.inr (List.all_eq_true.mp marker.fragment c hc))⟩
    have hne := List.append_ne_nil_of_left_ne_nil announcer.nonempty marker.text.toList
    simp only [FunctionForm.text_eq, FunctionForm.head, List.append_assoc, List.cons_append]
    simpa only [List.append_assoc] using fresh_returnType hne hword type _
  | constant name value =>
    unfold constantText
    rw [List.append_assoc, List.append_assoc]
    exact fresh_append (hnil "#define" rfl) (hplain "#define" (by decide))
      (isPlain_of_mem_name name) name.nonempty _
  | callback type name parameters =>
    unfold CallbackForm.text
    rw [List.append_assoc, List.append_assoc]
    exact fresh_returnType (hnil "typedef" rfl) (hplain "typedef" (by decide)) type _
  | enum name members =>
    unfold BracedForm.text
    rw [List.append_assoc, List.append_assoc]
    exact fresh_append (hnil "enum" rfl) (hplain "enum" (by decide))
      (isPlain_of_mem_name name) name.nonempty _
  | struct name fields =>
    unfold BracedForm.text
    rw [List.append_assoc, List.append_assoc]
    exact fresh_append (hnil "struct" rfl) (hplain "struct" (by decide))
      (isPlain_of_mem_name name) name.nonempty _
  | enumAlias tag name =>
    unfold AliasForm.text
    rw [List.append_assoc, List.append_assoc]
    exact fresh_append (hnil "typedef" rfl) (hplain "typedef" (by decide))
      (hplain "enum" (by decide)) (hnil "enum" rfl) _
  | structAlias tag name =>
    unfold AliasForm.text
    rw [List.append_assoc, List.append_assoc]
    exact fresh_append (hnil "typedef" rfl) (hplain "typedef" (by decide))
      (hplain "struct" (by decide)) (hnil "struct" rfl) _
  | aliasedStruct tag fields name =>
    unfold AliasedStructForm.text
    rw [List.append_assoc]
    exact fresh_append (hnil "typedef" rfl) (hplain "typedef" (by decide))
      (hplain "struct" (by decide)) (hnil "struct" rfl) _

/-- What stands behind a line is fresh. -/
theorem fresh_headerText (marker : ExportMarker) (declarations : List Declaration) :
    Fresh (headerText marker declarations) := by
  cases declarations with
  | nil => exact .inl rfl
  | cons first more =>
    unfold headerText
    rw [List.flatMap_cons]
    exact first.fresh_line marker _

/-- What begins with blanks and an opening character does not begin plainly. -/
theorem not_isPlain_of_gap {gap rest more : List Char} {c d : Char}
    (hg : ∀ e ∈ gap, isBlank e = true) (hc : isPlain c = false)
    (he : gap ++ c :: rest = d :: more) : isPlain d = false := by
  cases gap with
  | nil => rwa [← (List.cons.inj he).1]
  | cons e gap =>
    have hblank := hg e List.mem_cons_self
    rw [(List.cons.inj he).1] at hblank
    simp only [isPlain, hblank, Bool.not_true, Bool.false_and]

/-- No list or body opens in a fresh text behind a single word, whatever
blanks stand around it. -/
theorem Fresh.ne_gap {text gap tag gap' rest : List Char} {c : Char} (hf : Fresh text)
    (hg : ∀ d ∈ gap, isBlank d = true) (ht : ∀ d ∈ tag, isWord d = true)
    (hg' : ∀ d ∈ gap', isBlank d = true) (hc : c = '(' ∨ c = '\x7b') :
    text ≠ gap ++ (tag ++ (gap' ++ c :: rest)) := by
  intro he
  have hplain : isPlain c = false := by rcases hc with rfl | rfl <;> decide
  have hspace : ' ' ∉ tag := fun hm => absurd (ht _ hm) (by decide)
  rcases hf with rfl | ⟨word, next, more, rfl, hne, hw, hn⟩
  · exact absurd (List.append_eq_nil_iff.mp (List.append_eq_nil_iff.mp
      (List.append_eq_nil_iff.mp he.symm).2).2).2 (List.cons_ne_nil _ _)
  cases gap with
  | cons d gap =>
    obtain ⟨e, word, rfl⟩ := List.exists_cons_of_ne_nil hne
    have hfirst := hw e List.mem_cons_self
    have hblank := hg d List.mem_cons_self
    rw [← (List.cons.inj he).1] at hblank
    simp only [isPlain, hblank, Bool.not_true, Bool.false_and, Bool.false_eq_true] at hfirst
  | nil =>
    obtain ⟨s, rfl, hs⟩ := append_before hspace he.symm
    cases s with
    | cons d s =>
      have hfirst := hw d (List.mem_append_right _ List.mem_cons_self)
      rw [not_isPlain_of_gap hg' hplain hs] at hfirst
      exact Bool.noConfusion hfirst
    | nil =>
      cases gap' with
      | nil =>
        rw [(List.cons.inj hs).1] at hc
        exact absurd hc (by decide)
      | cons d gap' =>
        have hrest : ∀ e ∈ gap', isBlank e = true :=
          fun e hm => hg' e (List.mem_cons_of_mem d hm)
        rw [not_isPlain_of_gap hrest hplain (List.cons.inj hs).2] at hn
        exact Bool.noConfusion hn

/-! ## No comments -/

/-- The text of a header of canonical declarations holds no comment. -/
theorem stripComments_headerText (marker : ExportMarker) (declarations : List Declaration) :
    stripComments (headerText marker declarations) = headerText marker declarations := by
  have hfree (c : Char) (hc : inListed c = false ∧ inBraced c = false ∧ inAlias c = false ∧
      inConstant c = false) : c ∉ headerText marker declarations := by
    intro hm
    obtain ⟨declaration, -, hm⟩ := List.mem_flatMap.mp hm
    refine declaration.not_mem_line marker ?_ hm
    cases declaration with
    | function | callback => exact hc.1
    | enum | struct | aliasedStruct => exact hc.2.1
    | enumAlias | structAlias => exact hc.2.2.1
    | constant => exact hc.2.2.2
  exact stripComments_of_inert (forall_isInert (hfree '/' (by decide)) (hfree '"' (by decide))
    (hfree '\'' (by decide)))

end HeaderExports.Canonical
