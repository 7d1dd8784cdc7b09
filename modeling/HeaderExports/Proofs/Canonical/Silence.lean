import HeaderExports.Proofs.Canonical.Characters
import HeaderExports.Proofs.Pattern.Lines

/-!
# No pattern reads in the lines of another kind

A word of a pattern holds an anchor. Most lines of other kinds do not hold it at
all. Where they do, what stands in front of it or behind it is not what the
pattern asks for. A word that is begun in one line cannot be finished in the
next one, since the next line is fresh.
-/

namespace HeaderExports.Canonical

open Grammar Pattern
open Text (isBlank isWord append_before last_inj append_run_ne run_append_inj
  append_cons_split front_of_two)

/-! ## Functions and function pointer types -/

section Parenthesis

variable {line after : List Char}

/-- A line is silent for functions if no head of a function fits in front of a
parenthesis. -/
theorem silent_function (marker : ExportMarker)
    (hl : ∀ (form : FunctionForm) (front rest : List Char),
      line ≠ (front ++ form.head marker) ++ '(' :: rest) :
    Silent (functionPattern marker) (line ++ ['\n']) after := by
  refine silent_of_anchor (writes_functionPattern marker) (FunctionForm.text_eq marker) (by decide)
    (fun form s t rest he => ?_) fun form front rest behind he => absurd he (hl form front rest)
  have hm : '\n' ∈ form.head marker := by
    rw [he]
    exact List.mem_append_right s List.mem_cons_self
  exact absurd hm (form.not_mem_head marker (by decide) (by decide) (by decide) (by decide))

/-- Behind what has no line end, a gap that holds one goes on with blanks. -/
theorem blank_behind {front gap s t : List Char} (hf : '\n' ∉ front)
    (hg : ∀ c ∈ gap, isBlank c = true) (he : front ++ gap = s ++ '\n' :: t) :
    ∀ c ∈ t, isBlank c = true := by
  obtain ⟨u, -, rfl⟩ := append_before hf he
  exact fun c hc => hg c (List.mem_append_right u (List.mem_cons_of_mem _ hc))

/-- A line in front of a fresh text is silent for function pointer types if
none fits around a parenthesis. -/
theorem silent_callback (hf : Fresh after)
    (hl : ∀ (form : CallbackForm) (front rest behind : List Char),
      line = (front ++ form.head) ++ '(' :: rest →
        form.tail ++ behind ≠ rest ++ '\n' :: after) :
    Silent callbackPattern (line ++ ['\n']) after := by
  refine silent_of_anchor writes_callbackPattern CallbackForm.text_eq (by decide)
    (fun form s t rest he => ?_) hl
  have hfront : '\n' ∉ "typedef ".toList ++ form.type.chars :=
    List.not_mem_append (by decide) (form.type.not_mem (by decide) (by decide) (by decide))
  have hgap := blank_behind hfront form.gap.inside_of_mem ((List.append_assoc _ _ _).trans he)
  exact hf.ne_gap hgap (List.forall_mem_nil _) (List.forall_mem_nil _) (.inl rfl)

/-- What stands in front of the parameter list of a function ends with a word
character. -/
theorem function_head_ne (marker : ExportMarker) (form : FunctionForm) {z : Char}
    (hz : isWord z = false) (front l : List Char) : front ++ form.head marker ≠ l ++ [z] := by
  have hassoc : front ++ form.head marker =
      (front ++ ((form.announcer.chars ++ marker.text.toList) ++
        ' ' :: (form.type.chars ++ [' ']))) ++ form.name.chars := by
    simp only [FunctionForm.head, List.append_assoc, List.cons_append, List.nil_append]
  rw [hassoc]
  exact append_run_ne form.name.nonempty form.name.inside_of_mem (by rw [hz]; decide)

/-- No function is announced in a function pointer type: neither of its
parentheses stands behind a name. -/
theorem callback_ne_function (marker : ExportMarker) (form : CallbackForm)
    (hg : form.gap.chars = [' ']) (form' : FunctionForm) (front rest : List Char) :
    form.text ++ [';'] ≠ (front ++ form'.head marker) ++ '(' :: rest := by
  intro he
  have hlist : '(' ∉ (form.list.chars ++ [')']) ++ [';'] :=
    List.not_mem_append form.not_mem_tail.2 (by decide)
  rw [form.text_eq, form.tail_eq, List.append_assoc, List.cons_append, List.append_assoc,
    List.cons_append] at he
  rcases front_of_two (form.not_mem_head (.inl rfl)) form.not_mem_tail.1 hlist he with h | h
  · unfold CallbackForm.head at h
    rw [hg, ← List.append_assoc] at h
    exact function_head_ne marker form' (by decide) _ _ h
  · rw [← List.cons_append, ← List.cons_append, ← List.append_assoc] at h
    exact function_head_ne marker form' (by decide) _ _ h

/-- No function pointer type stands around the parenthesis of a function: its
name would be the parameter list, and another list would follow. -/
theorem function_ne_callback (marker : ExportMarker) (form : FunctionForm) (form' : CallbackForm)
    {front rest behind after : List Char}
    (he : form.text marker = (front ++ form'.head) ++ '(' :: rest) :
    form'.tail ++ behind ≠ rest ++ '\n' :: after := by
  have hfront : '(' ∉ form.head marker :=
    form.not_mem_head marker (by decide) (by decide) (by decide) (by decide)
  have hlist : '(' ∉ form.list.chars ++ [')', ';'] :=
    List.not_mem_append (form.list.not_mem (by decide)) (by decide)
  rw [form.text_eq] at he
  obtain ⟨-, -, rfl⟩ := (List.append_cons_inj_of_notMem hfront hlist).mp he
  intro hb
  have hname : ∀ c ∈ '*' :: form'.name.chars, inParameterList c = true := by
    refine List.forall_mem_cons.mpr ⟨by decide, fun c hc => ?_⟩
    rw [inParameterList, form'.name.inside_of_mem c hc]
    simp only [Bool.true_or]
  have htail : form'.tail ++ behind = ('*' :: form'.name.chars) ++
      ')' :: '(' :: (form'.list.chars ++ ')' :: behind) := by
    simp only [CallbackForm.tail, List.cons_append, List.append_assoc, List.nil_append]
  rw [htail, List.append_assoc] at hb
  obtain ⟨-, -, hnext⟩ := run_append_inj hname form.list.inside_of_mem (by decide) (by decide) hb
  exact absurd (List.cons.inj hnext).1 (by decide)

end Parenthesis

/-! ## Declarations with a body -/

section Brace

variable {inside inside' : Char → Bool} {line after : List Char}

/-- A line in front of a fresh text is silent for declarations behind a keyword
if none fits around a brace. -/
theorem silent_braced {keyword : String} (hk : '\n' ∉ keyword.toList) (hf : Fresh after)
    (hl : ∀ (form : BracedForm inside) (front rest behind : List Char),
      line = (front ++ form.head keyword) ++ '\x7b' :: rest →
        (form.members.chars ++ ['\x7d', ';']) ++ behind ≠ rest ++ '\n' :: after) :
    Silent (chain [Pattern.lit keyword, name, blanks, body inside, Pattern.lit ";"])
      (line ++ ['\n']) after := by
  refine silent_of_anchor (@writes_braced inside keyword) (BracedForm.text_eq keyword) (by decide)
    (fun form s t rest he => ?_) hl
  have hfront : '\n' ∉ keyword.toList ++ form.name.chars :=
    List.not_mem_append hk (form.name.not_mem (by decide))
  have hgap := blank_behind hfront form.gap.inside_of_mem ((List.append_assoc _ _ _).trans he)
  exact hf.ne_gap hgap (List.forall_mem_nil _) (List.forall_mem_nil _) (.inr rfl)

/-- A line in front of a fresh text is silent for structs with a type name if
none fits around a brace. -/
theorem silent_aliasedStruct (hf : Fresh after)
    (hl : ∀ (form : AliasedStructForm) (front rest behind : List Char),
      line = (front ++ form.head) ++ '\x7b' :: rest →
        form.tail ++ behind ≠ rest ++ '\n' :: after) :
    Silent aliasedStructPattern (line ++ ['\n']) after := by
  refine silent_of_anchor writes_aliasedStructPattern AliasedStructForm.text_eq (by decide)
    (fun form s t rest he => ?_) hl
  have hkeyword : '\n' ∉ "typedef struct".toList := by decide
  unfold AliasedStructForm.head AliasedStructForm.tagText at he
  cases htag : form.tag with
  | none =>
    rw [htag] at he
    have hgap := blank_behind hkeyword form.gap.inside_of_mem he
    exact hf.ne_gap hgap (List.forall_mem_nil _) (List.forall_mem_nil _) (.inr rfl)
  | some tag =>
    rw [htag] at he
    obtain ⟨u, -, hu⟩ := append_before hkeyword he
    rw [Option.elim, List.append_assoc] at hu
    -- the line ends in front of the tag or behind it
    rcases List.append_eq_append_iff.mp hu with ⟨v, rfl, hv⟩ | ⟨v, hv, ht⟩
    · have hgap := blank_behind (tag.2.not_mem (by decide)) form.gap.inside_of_mem hv
      exact hf.ne_gap hgap (List.forall_mem_nil _) (List.forall_mem_nil _) (.inr rfl)
    · cases v with
      | nil =>
        obtain ⟨c, name, hc⟩ := List.exists_cons_of_ne_nil tag.2.nonempty
        rw [hc] at ht
        have hword := tag.2.inside_of_mem c (hc ▸ List.mem_cons_self)
        rw [← (List.cons.inj ht).1] at hword
        exact absurd hword (by decide)
      | cons d v =>
        rw [List.cons_append] at ht
        obtain ⟨rfl, rfl⟩ := List.cons.inj ht
        have hgap : ∀ c ∈ v, isBlank c = true := by
          intro c hc
          refine tag.1.inside_of_mem c ?_
          rw [hv]
          exact List.mem_append_right u (List.mem_cons_of_mem _ hc)
        rw [List.append_assoc, List.append_assoc]
        exact hf.ne_gap hgap tag.2.inside_of_mem form.gap.inside_of_mem (.inr rfl)

/-- The only opening brace of a declaration with a body. -/
theorem braced_split {keyword : String} (hk : '\x7b' ∉ keyword.toList)
    (hopen : inside '\x7b' = false) {form : BracedForm inside} {l r : List Char}
    (he : form.text keyword = l ++ '\x7b' :: r) :
    l = form.head keyword ∧ r = form.members.chars ++ ['\x7d', ';'] := by
  have hhead : '\x7b' ∉ form.head keyword :=
    List.not_mem_append hk
      (List.not_mem_append (form.name.not_mem (by decide)) (form.gap.not_mem (by decide)))
  have hmembers : '\x7b' ∉ form.members.chars ++ ['\x7d', ';'] :=
    List.not_mem_append (form.members.not_mem hopen) (by decide)
  rw [form.text_eq] at he
  obtain ⟨hl, -, hr⟩ := (List.append_cons_inj_of_notMem hhead hmembers).mp he
  exact ⟨hl.symm, hr.symm⟩

/-- The only opening brace of a struct with a type name. -/
theorem aliasedStruct_split {form : AliasedStructForm} {l r : List Char}
    (he : form.text = l ++ '\x7b' :: r) : l = form.head ∧ r = form.tail := by
  have hhead : '\x7b' ∉ form.head := form.not_mem_head (by decide) (by decide)
  rw [form.text_eq] at he
  obtain ⟨hl, -, hr⟩ := (List.append_cons_inj_of_notMem hhead form.brace_not_mem_tail).mp he
  exact ⟨hl.symm, hr.symm⟩

/-- Behind another keyword no declaration fits around the brace of a
declaration with a body. -/
theorem other_keyword {inside inside' : Char → Bool} {keyword keyword' : String}
    {word word' : List Char} (hk : keyword.toList = word ++ [' '])
    (hk' : keyword'.toList = word' ++ [' ']) (hne : word' ≠ [])
    (hlast : word.getLast? ≠ word'.getLast?) (hb : '\x7b' ∉ keyword.toList)
    (hopen : inside '\x7b' = false) (form : BracedForm inside) (form' : BracedForm inside')
    (front rest : List Char) :
    form.text keyword ≠ (front ++ form'.head keyword') ++ '\x7b' :: rest := by
  intro he
  have hhead : [] ++ form.head keyword = front ++ form'.head keyword' :=
    (braced_split hb hopen he).1.symm
  have hword := congrArg List.getLast? (BracedForm.head_inj hk hk' hhead).1
  rw [List.nil_append, List.getLast?_append_of_ne_nil _ hne] at hword
  exact hlast hword

end Brace

/-! ## Type names -/

section Semicolon

variable {keyword : String} {line after : List Char}

/-- A line is silent for type names if none fits in front of a semicolon. -/
theorem silent_alias (hk : '\n' ∉ keyword.toList)
    (hl : ∀ (form : AliasForm) (front rest : List Char),
      line ≠ (front ++ form.head keyword) ++ ';' :: rest) :
    Silent (aliasPattern keyword) (line ++ ['\n']) after := by
  refine silent_of_anchor (writes_aliasPattern keyword) (AliasForm.text_eq_head keyword) (by decide)
    (fun form s t rest he => ?_) fun form front rest behind he => absurd he (hl form front rest)
  have hm : '\n' ∈ form.head keyword := by
    rw [he]
    exact List.mem_append_right s List.mem_cons_self
  exact absurd hm (form.not_mem_head (by decide) (by decide) hk)

/-- What stands in front of the semicolon of a type name ends with a word
character. -/
theorem alias_head_ne (form : AliasForm) {z : Char} (hz : isWord z = false)
    (front l : List Char) : front ++ form.head keyword ≠ l ++ [z] := by
  have hassoc : front ++ form.head keyword =
      (front ++ (aliasFront keyword ++ ' ' :: (form.tag.chars ++ [' ']))) ++ form.name.chars := by
    simp only [AliasForm.head, List.append_assoc, List.cons_append, List.nil_append]
  rw [hassoc]
  exact append_run_ne form.name.nonempty form.name.inside_of_mem (by rw [hz]; decide)

/-- No type name ends a text with one semicolon behind another character than
that of a word. -/
theorem closed_ne_alias {l : List Char} {z : Char} (hs : ';' ∉ l ++ [z]) (hz : isWord z = false)
    (form : AliasForm) (front rest : List Char) :
    (l ++ [z]) ++ [';'] ≠ (front ++ form.head keyword) ++ ';' :: rest := by
  intro he
  have hfront := ((List.append_cons_inj_of_notMem hs List.not_mem_nil).mp he).1
  exact alias_head_ne form hz front l hfront.symm

/-- What may stand in front of a field: nothing, or another one. -/
def Separated (front : List Char) : Prop := front = [] ∨ ∃ l, front = l ++ [';']

/-- A field without its semicolon, behind a space. -/
def fieldFront (field : Field) : List Char :=
  ' ' :: (field.type.chars ++ ' ' :: field.nameText)

/-- The text of fields, each behind a space. -/
def spacedFields (fields : List Field) : List Char := fields.flatMap fun field => ' ' :: field.text

/-- The first of spaced fields ends with its semicolon. -/
theorem spacedFields_cons (field : Field) (fields : List Field) :
    spacedFields (field :: fields) = fieldFront field ++ ';' :: spacedFields fields := by
  simp only [spacedFields, fieldFront, List.flatMap_cons, Field.text, List.cons_append,
    List.append_assoc, List.nil_append]

/-- The type of a field and its name hold no space and no semicolon. -/
theorem not_mem_field (field : Field) {c : Char} (hn : inFieldName c = false) (hs : c ≠ '*') :
    c ∉ field.type.chars ∧ c ∉ field.nameText := by
  have hword : isWord c = false := by
    unfold inFieldName at hn
    exact (Bool.or_eq_false_iff.mp (Bool.or_eq_false_iff.mp hn).1).1
  have hstars : c ∉ List.replicate field.stars '*' := fun hm => hs (List.eq_of_mem_replicate hm)
  have hlabel : c ∉ field.label.text := by
    intro hm
    rw [inFieldName_of_mem_label hm] at hn
    exact Bool.noConfusion hn
  exact ⟨field.type.not_mem hword hs, List.not_mem_append hstars hlabel⟩

/-- A field holds no semicolon in front of its own. -/
theorem semicolon_not_mem_fieldFront (field : Field) : ';' ∉ fieldFront field := by
  obtain ⟨htype, hname⟩ := @not_mem_field field ';' (by decide) (by decide)
  simp only [fieldFront, List.mem_cons, List.mem_append, not_or]
  exact ⟨by decide, htype, by decide, hname⟩

/-- A field can stand behind fields. -/
theorem separated_spacedFields (fields : List Field) : Separated (spacedFields fields) := by
  induction fields with
  | nil => exact .inl rfl
  | cons field fields ih =>
    rw [spacedFields_cons]
    rcases ih with h | ⟨l, h⟩
    · exact .inr ⟨fieldFront field, by rw [h]⟩
    · exact .inr ⟨fieldFront field ++ ';' :: l, by rw [h, List.append_assoc, List.cons_append]⟩

/-- A semicolon in fields or behind them ends a field or stands behind all. -/
theorem spacedFields_split {fields : List Field} {e s r : List Char}
    (he : spacedFields fields ++ e = s ++ ';' :: r) :
    (∃ front field, Separated front ∧ s = front ++ fieldFront field) ∨
      ∃ t, s = spacedFields fields ++ t ∧ e = t ++ ';' :: r := by
  induction fields generalizing s with
  | nil => exact .inr ⟨s, rfl, he⟩
  | cons field fields ih =>
    rw [spacedFields_cons, List.append_assoc, List.cons_append] at he
    rcases append_cons_split he with ⟨t, rfl, ht⟩ | ⟨t, ht, -⟩ | ⟨rfl, -⟩
    · rcases ih ht with ⟨front, next, hf, rfl⟩ | ⟨u, rfl, hu⟩
      · refine .inl ⟨fieldFront field ++ ';' :: front, next, ?_, ?_⟩
        · rcases hf with rfl | ⟨l, rfl⟩
          · exact .inr ⟨fieldFront field, rfl⟩
          · exact .inr ⟨fieldFront field ++ ';' :: l, by rw [List.append_assoc, List.cons_append]⟩
        · rw [List.append_assoc, List.cons_append]
      · exact .inr ⟨u, by rw [spacedFields_cons, List.append_assoc, List.cons_append], hu⟩
    · have hm : ';' ∈ fieldFront field := ht ▸ List.mem_append_right s List.mem_cons_self
      exact absurd hm (semicolon_not_mem_fieldFront field)
    · exact .inl ⟨[], field, .inl rfl, rfl⟩

/-- Two words behind the brace of a body or behind a semicolon do not make a
type name, since no keyword stands in front of them. -/
theorem separated_ne_alias (hk : keyword.toList ≠ []) (hw : ∀ c ∈ keyword.toList, isWord c = true)
    {head l u v : List Char} (hl : Separated l) (hu : ' ' ∉ u) (hv : ' ' ∉ v) (form : AliasForm)
    (front : List Char) :
    (head ++ '\x7b' :: l) ++ ' ' :: (u ++ ' ' :: v) ≠ front ++ form.head keyword := by
  intro he
  have htext : front ++ form.head keyword =
      ((front ++ aliasFront keyword) ++ ' ' :: form.tag.chars) ++ ' ' :: form.name.chars := by
    simp only [AliasForm.head, List.append_assoc, List.cons_append]
  rw [htext, ← List.cons_append, ← List.append_assoc] at he
  obtain ⟨htags, -⟩ := last_inj hv (form.name.not_mem (by decide)) he
  obtain ⟨hfront, -⟩ := last_inj hu (form.tag.not_mem (by decide)) htags
  have hne (z : Char) (hz : ¬isWord z = true) (l : List Char) :
      front ++ aliasFront keyword ≠ l ++ [z] := by
    intro h
    exact append_run_ne hk hw hz ((List.append_assoc front _ _).trans h)
  rcases hl with rfl | ⟨l, rfl⟩
  · exact hne '\x7b' (by decide) _ hfront.symm
  · rw [← List.cons_append, ← List.append_assoc] at hfront
    exact hne ';' (by decide) _ hfront.symm

/-- No type name ends at a semicolon of a body with fields, if none ends at the
semicolon behind it. -/
theorem fields_ne_alias (hk : keyword.toList ≠ []) (hw : ∀ c ∈ keyword.toList, isWord c = true)
    {head t : List Char} (hh : ';' ∉ head) (ht : ';' ∉ t) (form : AliasForm)
    (front rest : List Char)
    (hlast : ∀ l, Separated l → (head ++ '\x7b' :: l) ++ t ≠ front ++ form.head keyword)
    (fields : List Field) :
    head ++ '\x7b' :: (spacedFields fields ++ (t ++ [';'])) ≠
      (front ++ form.head keyword) ++ ';' :: rest := by
  intro he
  have hopen : ';' ∉ head ++ ['\x7b'] := List.not_mem_append hh (by decide)
  rw [← List.singleton_append, ← List.append_assoc] at he
  obtain ⟨s, hs, hrest⟩ := append_before hopen he
  rw [List.append_assoc, List.singleton_append] at hs
  rcases spacedFields_split hrest with ⟨l, field, hl, rfl⟩ | ⟨u, rfl, hu⟩
  · obtain ⟨htype, hname⟩ := @not_mem_field field ' ' (by decide) (by decide)
    refine @separated_ne_alias keyword hk hw head l _ _ hl htype hname form front ?_
    rw [hs, List.append_assoc, List.cons_append]
    rfl
  · obtain ⟨rfl, -, -⟩ := (List.append_cons_inj_of_notMem ht List.not_mem_nil).mp hu
    refine hlast _ (separated_spacedFields fields) ?_
    rw [hs, List.append_assoc, List.cons_append]

/-- No type name ends with the semicolon of a function. -/
theorem function_ne_alias (marker : ExportMarker) (form : FunctionForm) (form' : AliasForm)
    (front rest : List Char) :
    form.text marker ≠ (front ++ form'.head keyword) ++ ';' :: rest := by
  have hhead : ';' ∉ form.head marker :=
    form.not_mem_head marker (by decide) (by decide) (by decide) (by decide)
  have hlist := form.list.not_mem (c := ';') (by decide)
  have htext : form.text marker =
      ((form.head marker ++ '(' :: form.list.chars) ++ [')']) ++ [';'] := by
    simp only [FunctionForm.text_eq, List.append_assoc, List.cons_append, List.nil_append]
  rw [htext]
  refine closed_ne_alias ?_ (by decide) form' front rest
  simp only [List.mem_append, List.mem_cons, not_or]
  exact ⟨⟨hhead, by decide, hlist⟩, by decide, List.not_mem_nil⟩

/-- No type name ends with the semicolon behind a function pointer type. -/
theorem callback_ne_alias (form : CallbackForm) (form' : AliasForm) (front rest : List Char) :
    form.text ++ [';'] ≠ (front ++ form'.head keyword) ++ ';' :: rest := by
  have hhead : ';' ∉ form.head :=
    List.not_mem_append (by decide) (List.not_mem_append
      (form.type.not_mem (by decide) (by decide) (by decide)) (form.gap.not_mem (by decide)))
  have hname := form.name.not_mem (c := ';') (by decide)
  have hlist := form.list.not_mem (c := ';') (by decide)
  have htext : form.text = (form.head ++ '(' :: '*' :: (form.name.chars ++
      ')' :: '(' :: form.list.chars)) ++ [')'] := by
    simp only [CallbackForm.text_eq, CallbackForm.tail, List.append_assoc, List.cons_append]
  rw [htext]
  refine closed_ne_alias ?_ (by decide) form' front rest
  simp only [List.mem_append, List.mem_cons, not_or]
  exact ⟨⟨hhead, by decide, by decide, hname, by decide, by decide, hlist⟩, by decide,
    List.not_mem_nil⟩

/-- No type name ends with the semicolon of a declaration whose body holds
none. -/
theorem braced_ne_alias {inside : Char → Bool} {other : String} (hs : ';' ∉ other.toList)
    (hi : inside ';' = false) (form : BracedForm inside) (form' : AliasForm)
    (front rest : List Char) :
    form.text other ≠ (front ++ form'.head keyword) ++ ';' :: rest := by
  have hname := form.name.not_mem (c := ';') (by decide)
  have hgap := form.gap.not_mem (c := ';') (by decide)
  have hmembers := form.members.not_mem hi
  have htext : form.text other =
      ((form.head other ++ '\x7b' :: form.members.chars) ++ ['\x7d']) ++ [';'] := by
    simp only [BracedForm.text_eq, List.append_assoc, List.cons_append, List.nil_append]
  rw [htext]
  refine closed_ne_alias ?_ (by decide) form' front rest
  simp only [BracedForm.head, List.mem_append, List.mem_cons, not_or]
  exact ⟨⟨⟨hs, hname, hgap⟩, by decide, hmembers⟩, by decide, List.not_mem_nil⟩

section Fields

variable (hk : keyword.toList ≠ []) (hw : ∀ c ∈ keyword.toList, isWord c = true)

include hk hw

/-- No type name ends in a struct without a type name of its own. -/
theorem struct_ne_alias (name : Name) (fields : List Field) (form' : AliasForm)
    (front rest : List Char) :
    BracedForm.text "struct " ⟨name, space.toStretch, fieldsBody fields⟩ ≠
      (front ++ form'.head keyword) ++ ';' :: rest := by
  let form : BracedForm inStructBody := ⟨name, space.toStretch, fieldsBody fields⟩
  have hhead : ';' ∉ form.head "struct " :=
    List.not_mem_append (by decide)
      (List.not_mem_append (name.not_mem (by decide)) (space.not_mem (by decide)))
  have htext : form.text "struct " = form.head "struct " ++
      '\x7b' :: (spacedFields fields ++ ([' ', '\x7d'] ++ [';'])) := by
    rw [form.text_eq]
    exact congrArg (form.head "struct " ++ '\x7b' :: ·) (List.append_assoc _ _ _)
  have hend : ';' ∉ [' ', '\x7d'] := by decide
  intro he
  refine fields_ne_alias hk hw hhead hend form' front rest (fun l _ h => ?_) fields
    (htext.symm.trans he)
  have hclose : front ++ form'.head keyword =
      ((form.head "struct " ++ '\x7b' :: l) ++ [' ']) ++ ['\x7d'] := by
    rw [← h, List.append_assoc _ [' ']]
    rfl
  exact alias_head_ne form' (by decide) _ _ hclose

/-- No type name ends in a struct with a type name. -/
theorem aliasedStruct_ne_alias (tag : Option (Token isBlank × Name)) (fields : List Field)
    (name : Name) (form' : AliasForm) (front rest : List Char) :
    AliasedStructForm.text ⟨tag, space.toStretch, fieldsBody fields, space.toStretch, name⟩ ≠
      (front ++ form'.head keyword) ++ ';' :: rest := by
  let form : AliasedStructForm := ⟨tag, space.toStretch, fieldsBody fields, space.toStretch, name⟩
  have hhead : ';' ∉ form.head := form.not_mem_head (by decide) (by decide)
  have htext : form.text = form.head ++ '\x7b' ::
      (spacedFields fields ++ ((' ' :: (['\x7d'] ++ ' ' :: name.chars)) ++ [';'])) := by
    rw [form.text_eq]
    exact congrArg (form.head ++ '\x7b' :: ·) (List.append_assoc _ _ _)
  have hname : ';' ∉ ' ' :: (['\x7d'] ++ ' ' :: name.chars) := by
    have h := name.not_mem (c := ';') (by decide)
    simp only [List.mem_append, List.mem_cons, not_or]
    exact ⟨by decide, ⟨by decide, List.not_mem_nil⟩, by decide, h⟩
  intro he
  refine fields_ne_alias hk hw hhead hname form' front rest (fun l hl h => ?_) fields
    (htext.symm.trans he)
  exact @separated_ne_alias keyword hk hw form.head l _ _ hl (by decide) (name.not_mem (by decide))
    form' front h

end Fields

/-- The front of a type name for one tag is not that for another, whatever
stands in front of it. -/
theorem other_tag {other : String} (hk : keyword.toList ≠ [])
    (hlast : (aliasFront other).getLast? ≠ keyword.toList.getLast?) (hs : ';' ∉ other.toList)
    (form form' : AliasForm) (front rest : List Char) :
    form.text other ≠ (front ++ form'.head keyword) ++ ';' :: rest := by
  intro he
  have hhead : ';' ∉ form.head other := form.not_mem_head (by decide) (by decide) hs
  rw [form.text_eq_head] at he
  have hheads : [] ++ form.head other = front ++ form'.head keyword :=
    ((List.append_cons_inj_of_notMem hhead List.not_mem_nil).mp he).1
  have hfronts : aliasFront other = (front ++ "typedef ".toList) ++ keyword.toList :=
    (AliasForm.head_inj hheads).1.trans (List.append_assoc _ _ _).symm
  exact hlast ((congrArg List.getLast? hfronts).trans (List.getLast?_append_of_ne_nil _ hk))

end Semicolon

end HeaderExports.Canonical
