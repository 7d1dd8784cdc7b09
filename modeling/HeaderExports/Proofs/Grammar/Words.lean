import HeaderExports.Grammar
import HeaderExports.Proofs.Pattern.Words

/-!
# The words of the declaration patterns

Every declaration pattern writes its words from data: names, types, gaps and
bodies, each of which carries the proof that it is made of the right
characters. What a pattern marks are the parts of the data.
-/

namespace HeaderExports.Grammar

open Pattern
open Text (isBlank isWord)

/-! ## Names and types -/

/-- A name is a run of word characters. -/
abbrev Name := Token isWord

/-- A name with stars behind it. -/
structure StarredName where
  /-- The name. -/
  base : Name
  /-- The number of stars. -/
  stars : ℕ

/-- The name and its stars. -/
def StarredName.chars (type : StarredName) : List Char :=
  type.base.chars ++ List.replicate type.stars '*'

/-- A type that a function returns. -/
structure ReturnType where
  /-- Whether the qualifier stands in front. -/
  qualified : Bool
  /-- The name and its stars. -/
  starred : StarredName

/-- The qualifier or nothing. -/
def qualifierText (qualified : Bool) : List Char := if qualified then "const ".toList else []

/-- The type as it is written. -/
def ReturnType.chars (type : ReturnType) : List Char :=
  qualifierText type.qualified ++ type.starred.chars

/-- The word pattern writes names. -/
theorem writes_word : Writes word (fun n : Name => n.chars) (fun _ => []) := Writes.token isWord

/-- The name pattern writes names and marks them. -/
theorem writes_name : Writes name (fun n : Name => n.chars) (fun n => [(.name, n.chars)]) :=
  writes_word.mark Part.name

/-- The stars pattern writes any number of stars. -/
theorem writes_stars : Writes stars (fun n : ℕ => List.replicate n '*') (fun _ => []) := by
  intro text marks
  rw [stars, spells_star_one_iff]
  constructor
  · rintro ⟨hall, hmarks⟩
    exact ⟨text.length, List.eq_replicate_of_mem fun c hc => beq_iff_eq.mp (hall c hc), hmarks⟩
  · rintro ⟨n, rfl, hmarks⟩
    exact ⟨fun c hc => beq_iff_eq.mpr (List.eq_of_mem_replicate hc), hmarks⟩

/-- A word with stars behind it is written from a starred name. -/
theorem writes_starredWord : Writes starredWord StarredName.chars (fun _ => []) :=
  ((Writes.token isWord).cons writes_stars.last).along
    (fun type : StarredName => (type.base, type.stars)) fun ⟨base, stars⟩ => ⟨⟨base, stars⟩, rfl⟩

/-- A given text is written or not. -/
theorem writes_optional_lit (given : String) :
    Writes (σ := Part) (optional (Pattern.lit given))
      (fun written : Bool => if written then given.toList else []) (fun _ => []) := by
  intro text marks
  rw [spells_optional_iff, Pattern.lit, spells_exactly_iff]
  constructor
  · rintro (h | h)
    · exact ⟨true, h⟩
    · exact ⟨false, h⟩
  · rintro ⟨_ | _, h⟩
    · exact .inr h
    · exact .inl h

/-- The qualifier is written or not. -/
theorem writes_qualifier : Writes qualifier qualifierText (fun _ => []) :=
  writes_optional_lit "const "

/-- The return type pattern writes return types and marks them. -/
theorem writes_returnType : Writes returnType ReturnType.chars (fun t => [(.type, t.chars)]) :=
  ((writes_qualifier.cons writes_starredWord.last).mark Part.type).along
    (fun type : ReturnType => (type.qualified, type.starred))
    fun ⟨qualified, starred⟩ => ⟨⟨qualified, starred⟩, rfl⟩

/-! ## Lists and bodies -/

/-- A parameter list stands in parentheses and is marked without them. -/
theorem writes_parameterList :
    Writes parameterList
      (fun list : Stretch inParameterList => '(' :: (list.chars ++ [')']))
      (fun list => [(.body, list.chars)]) :=
  (Writes.lit "("
    (((Writes.stretch inParameterList).mark Part.body).cons (Writes.lit ")" .nil))).along
    (fun list : Stretch inParameterList => (list, ())) fun ⟨list, ()⟩ => ⟨list, rfl⟩

/-- A parameter list is written in front of what others write. -/
theorem writes_parameterList_cons {β : Type} {others : List (Pattern Part)} {text : β → List Char}
    {parts : β → Marks Part} (ho : Writes (chain others) text parts) :
    Writes (chain (parameterList :: others))
      (fun x : Stretch inParameterList × β => '(' :: (x.1.chars ++ ')' :: text x.2))
      (fun x => (.body, x.1.chars) :: parts x.2) := by
  refine (writes_parameterList.cons ho).of_eq (fun x => ?_) fun x => rfl
  rw [List.cons_append, List.append_assoc, List.singleton_append]

/-- A body stands in braces and is marked without them. -/
theorem writes_body (inside : Char → Bool) :
    Writes (body inside) (fun members : Token inside => '\x7b' :: (members.chars ++ ['\x7d']))
      (fun members => [(.body, members.chars)]) :=
  (Writes.lit "\x7b" (((Writes.token inside).mark Part.body).cons (Writes.lit "\x7d" .nil))).along
    (fun members : Token inside => (members, ())) fun ⟨members, ()⟩ => ⟨members, rfl⟩

/-- A body is written in front of what others write. -/
theorem writes_body_cons (inside : Char → Bool) {β : Type} {others : List (Pattern Part)}
    {text : β → List Char} {parts : β → Marks Part} (ho : Writes (chain others) text parts) :
    Writes (chain (body inside :: others))
      (fun x : Token inside × β => '\x7b' :: (x.1.chars ++ '\x7d' :: text x.2))
      (fun x => (.body, x.1.chars) :: parts x.2) := by
  refine ((writes_body inside).cons ho).of_eq (fun x => ?_) fun x => rfl
  rw [List.cons_append, List.append_assoc, List.singleton_append]

/-! ## Declarations -/

/-- What a function is written from. -/
structure FunctionForm where
  /-- The word in front of the export marker. -/
  announcer : Name
  /-- The return type. -/
  type : ReturnType
  /-- The name. -/
  name : Name
  /-- The parameter list. -/
  list : Stretch inParameterList

/-- The text of a function. -/
def FunctionForm.text (marker : ExportMarker) (form : FunctionForm) : List Char :=
  form.announcer.chars ++ (marker.text.toList ++ (' ' :: (form.type.chars ++
    (' ' :: (form.name.chars ++ ('(' :: (form.list.chars ++ [')', ';'])))))))

/-- What stands in front of the parameter list of a function. -/
def FunctionForm.head (marker : ExportMarker) (form : FunctionForm) : List Char :=
  (form.announcer.chars ++ marker.text.toList) ++ (' ' :: (form.type.chars ++
    (' ' :: form.name.chars)))

/-- A function is written from its head and its parameter list. -/
theorem FunctionForm.text_eq (marker : ExportMarker) (form : FunctionForm) :
    form.text marker = form.head marker ++ '(' :: (form.list.chars ++ [')', ';']) := by
  simp only [FunctionForm.text, FunctionForm.head, List.append_assoc, List.cons_append]

/-- A function has a character. -/
theorem FunctionForm.text_ne_nil (marker : ExportMarker) (form : FunctionForm) :
    form.text marker ≠ [] :=
  List.append_ne_nil_of_left_ne_nil form.announcer.nonempty _

/-- The parts of a function. -/
def FunctionForm.parts (form : FunctionForm) : Marks Part :=
  [(.type, form.type.chars), (.name, form.name.chars), (.body, form.list.chars)]

/-- Functions are written from their forms. -/
theorem writes_functionPattern (marker : ExportMarker) :
    Writes (functionPattern marker) (FunctionForm.text marker) FunctionForm.parts := by
  have hlist := writes_parameterList_cons (Writes.lit ";" .nil)
  have htype := writes_returnType.cons (Writes.lit " " (writes_name.cons hlist))
  have hword := (Writes.token isWord).cons (Writes.lit marker.text (Writes.lit " " htype))
  exact hword.along
    (fun form : FunctionForm => (form.announcer, form.type, form.name, form.list, ()))
    fun ⟨announcer, type, name, list, ()⟩ => ⟨⟨announcer, type, name, list⟩, rfl⟩

/-- A character of a string literal. -/
inductive LiteralChar where
  /-- A character that stands for itself. -/
  | plain (c : Char) (free : c ≠ '"' ∧ c ≠ '\\' ∧ c ≠ '\n')
  /-- A character behind a backslash. -/
  | escaped (c : Char) (sameLine : c ≠ '\n')

/-- The character as it is written. -/
def LiteralChar.text : LiteralChar → List Char
  | plain c _ => [c]
  | escaped c _ => ['\\', c]

/-- The value of a constant. -/
inductive ConstantValue where
  /-- A string literal. -/
  | literal (chars : List LiteralChar)
  /-- A word. -/
  | word (chars : Name)

/-- The value as it is written, a string literal with its quotes. -/
def ConstantValue.chars : ConstantValue → List Char
  | literal chars => '"' :: (chars.flatMap LiteralChar.text ++ ['"'])
  | word chars => chars.chars

/-- A character of the gap in front of a constant's value. -/
def inConstantGap (c : Char) : Bool := c == ' ' || c == '\t'

/-- What a constant is written from. -/
structure ConstantForm where
  /-- The name. -/
  name : Name
  /-- What stands in front of the value. -/
  gap : Token inConstantGap
  /-- The value. -/
  value : ConstantValue

/-- The text of a constant. -/
def ConstantForm.text (form : ConstantForm) : List Char :=
  "#define ".toList ++ (form.name.chars ++ (form.gap.chars ++ form.value.chars))

/-- A constant has a character. -/
theorem ConstantForm.text_ne_nil (form : ConstantForm) : form.text ≠ [] :=
  List.append_ne_nil_of_left_ne_nil (by decide) _

/-- The parts of a constant. -/
def ConstantForm.parts (form : ConstantForm) : Marks Part :=
  [(.name, form.name.chars), (.value, form.value.chars)]

/-- A character of a string literal stands for itself or behind a backslash. -/
theorem writes_literalChar :
    Writes (σ := Part) (.alt (.one fun c => !(c == '"' || c == '\\' || c == '\n'))
      (chain [Pattern.lit "\\", .one (! · == '\n')])) LiteralChar.text (fun _ => []) := by
  have hplain := Writes.one (σ := Part) fun c => !(c == '"' || c == '\\' || c == '\n')
  have hescaped := Writes.lit "\\" (Writes.one (σ := Part) (! · == '\n')).last
  intro word marks
  rw [hplain.alt hescaped word marks]
  constructor
  · rintro ⟨⟨c, hc⟩ | ⟨c, hc⟩, hword, hmarks⟩
    · exact ⟨.plain c (by simpa [and_assoc] using hc), hword, hmarks⟩
    · exact ⟨.escaped c (by simpa using hc), hword, hmarks⟩
  · rintro ⟨⟨c, hc⟩ | ⟨c, hc⟩, hword, hmarks⟩
    · exact ⟨.inl ⟨c, by simpa [and_assoc] using hc⟩, hword, hmarks⟩
    · exact ⟨.inr ⟨c, by simpa using hc⟩, hword, hmarks⟩

/-- A string literal is written from its characters. -/
theorem writes_stringLiteral :
    Writes stringLiteral (fun chars => (ConstantValue.literal chars).chars) (fun _ => []) := by
  have hchars := writes_literalChar.star fun x => by cases x <;> exact List.cons_ne_nil _ _
  have hquoted := Writes.lit "\"" (hchars.cons (Writes.lit "\"" .nil))
  refine (hquoted.along (fun chars => (chars, ())) fun ⟨chars, ()⟩ => ⟨chars, rfl⟩).of_eq
    (fun chars => rfl) fun chars => ?_
  rw [List.append_nil, List.flatMap_eq_nil_iff]
  exact fun _ _ => rfl

/-- The value of a constant is a string literal or a word. -/
theorem writes_constantValue :
    Writes (.alt stringLiteral word) ConstantValue.chars (fun _ => []) := by
  intro text marks
  rw [writes_stringLiteral.alt writes_word text marks]
  constructor
  · rintro ⟨chars | chars, hword, hmarks⟩
    · exact ⟨.literal chars, hword, hmarks⟩
    · exact ⟨.word chars, hword, hmarks⟩
  · rintro ⟨chars | chars, hword, hmarks⟩
    · exact ⟨.inl chars, hword, hmarks⟩
    · exact ⟨.inr chars, hword, hmarks⟩

/-- Constants are written from their forms. -/
theorem writes_constantPattern :
    Writes constantPattern ConstantForm.text ConstantForm.parts := by
  have hvalue := (writes_constantValue.mark Part.value).last
  have hgap := (Writes.token inConstantGap).cons hvalue
  exact (Writes.lit "#define " (writes_name.cons hgap)).along
    (fun form : ConstantForm => (form.name, form.gap, form.value))
    fun ⟨name, gap, value⟩ => ⟨⟨name, gap, value⟩, rfl⟩

/-- What a function pointer type is written from. -/
structure CallbackForm where
  /-- The return type. -/
  type : ReturnType
  /-- What stands in front of the name's parentheses. -/
  gap : Stretch isBlank
  /-- The name. -/
  name : Name
  /-- The parameter list. -/
  list : Stretch inParameterList

/-- The text of a function pointer type. -/
def CallbackForm.text (form : CallbackForm) : List Char :=
  "typedef ".toList ++ (form.type.chars ++ (form.gap.chars ++ ('(' :: '*' ::
    (form.name.chars ++ (')' :: '(' :: (form.list.chars ++ [')']))))))

/-- What stands in front of the parentheses of a function pointer type. -/
def CallbackForm.head (form : CallbackForm) : List Char :=
  "typedef ".toList ++ (form.type.chars ++ form.gap.chars)

/-- What stands behind the first parenthesis of a function pointer type. -/
def CallbackForm.tail (form : CallbackForm) : List Char :=
  '*' :: (form.name.chars ++ (')' :: '(' :: (form.list.chars ++ [')'])))

/-- A function pointer type is written from what stands in front of its first
parenthesis and behind it. -/
theorem CallbackForm.text_eq (form : CallbackForm) :
    form.text = form.head ++ '(' :: form.tail := by
  unfold text head tail
  generalize "typedef ".toList = front
  simp only [List.append_assoc]

/-- Behind its first parenthesis a function pointer type has one more. -/
theorem CallbackForm.tail_eq (form : CallbackForm) :
    form.tail = ('*' :: (form.name.chars ++ [')'])) ++ '(' :: (form.list.chars ++ [')']) := by
  simp only [CallbackForm.tail, List.cons_append, List.append_assoc, List.nil_append]

/-- A function pointer type has a character. -/
theorem CallbackForm.text_ne_nil (form : CallbackForm) : form.text ≠ [] :=
  List.append_ne_nil_of_left_ne_nil (by decide) _

/-- The parts of a function pointer type. -/
def CallbackForm.parts (form : CallbackForm) : Marks Part :=
  [(.type, form.type.chars), (.name, form.name.chars), (.body, form.list.chars)]

/-- Function pointer types are written from their forms. -/
theorem writes_callbackPattern :
    Writes callbackPattern CallbackForm.text CallbackForm.parts := by
  have hname := writes_name.cons (Writes.lit ")" writes_parameterList.last)
  have hgap := (Writes.stretch isBlank).cons (Writes.lit "(*" hname)
  exact (Writes.lit "typedef " (writes_returnType.cons hgap)).along
    (fun form : CallbackForm => (form.type, form.gap, form.name, form.list))
    fun ⟨type, gap, name, list⟩ => ⟨⟨type, gap, name, list⟩, rfl⟩

/-- What a declaration with a body is written from. -/
structure BracedForm (inside : Char → Bool) where
  /-- The name. -/
  name : Name
  /-- What stands in front of the body. -/
  gap : Stretch isBlank
  /-- The members. -/
  members : Token inside

section Braced

variable {inside : Char → Bool}

/-- The text of a declaration with a body behind a keyword. -/
def BracedForm.text (keyword : String) (form : BracedForm inside) : List Char :=
  keyword.toList ++ (form.name.chars ++ (form.gap.chars ++ ('\x7b' ::
    (form.members.chars ++ ['\x7d', ';']))))

/-- What stands in front of the body of a declaration behind a keyword. -/
def BracedForm.head (keyword : String) (form : BracedForm inside) : List Char :=
  keyword.toList ++ (form.name.chars ++ form.gap.chars)

/-- A declaration with a body is written from its head and its members. -/
theorem BracedForm.text_eq (keyword : String) (form : BracedForm inside) :
    form.text keyword = form.head keyword ++ '\x7b' :: (form.members.chars ++ ['\x7d', ';']) := by
  rw [BracedForm.text, BracedForm.head, List.append_assoc, List.append_assoc]

/-- A declaration with a body has a character. -/
theorem BracedForm.text_ne_nil {keyword : String} (hk : keyword.toList ≠ [])
    (form : BracedForm inside) : form.text keyword ≠ [] :=
  List.append_ne_nil_of_left_ne_nil hk _

/-- The parts of a declaration with a body. -/
def BracedForm.parts (form : BracedForm inside) : Marks Part :=
  [(.name, form.name.chars), (.body, form.members.chars)]

/-- Declarations with a body are written from their forms. -/
theorem writes_braced (keyword : String) :
    Writes (chain [Pattern.lit keyword, name, blanks, body inside, Pattern.lit ";"])
      (BracedForm.text keyword) (fun form : BracedForm inside => form.parts) := by
  have hbody := writes_body_cons inside (Writes.lit ";" .nil)
  have hname := writes_name.cons ((Writes.stretch isBlank).cons hbody)
  exact (Writes.lit keyword hname).along
    (fun form : BracedForm inside => (form.name, form.gap, form.members, ()))
    fun ⟨name, gap, members, ()⟩ => ⟨⟨name, gap, members⟩, rfl⟩

end Braced

/-- What a type name for a tag is written from. -/
structure AliasForm where
  /-- The tag. -/
  tag : Name
  /-- The type name. -/
  name : Name

/-- The text of a type name for a tag of the given keyword. -/
def AliasForm.text (keyword : String) (form : AliasForm) : List Char :=
  "typedef ".toList ++ (keyword.toList ++ (' ' :: (form.tag.chars ++ (' ' ::
    (form.name.chars ++ [';'])))))

/-- What stands in front of the tag in a type name for it. -/
def aliasFront (keyword : String) : List Char := "typedef ".toList ++ keyword.toList

/-- A type name is written from its front, its tag and its name. -/
theorem AliasForm.text_eq (keyword : String) (form : AliasForm) :
    form.text keyword = aliasFront keyword ++
      (' ' :: (form.tag.chars ++ (' ' :: (form.name.chars ++ [';'])))) :=
  (List.append_assoc _ _ _).symm

/-- What stands in front of the semicolon of a type name for a tag. -/
def AliasForm.head (keyword : String) (form : AliasForm) : List Char :=
  aliasFront keyword ++ ' ' :: (form.tag.chars ++ ' ' :: form.name.chars)

/-- A type name is written from its head and a semicolon. -/
theorem AliasForm.text_eq_head (keyword : String) (form : AliasForm) :
    form.text keyword = form.head keyword ++ ';' :: [] := by
  simp only [text_eq, head, List.append_assoc, List.cons_append]

/-- A type name has a character. -/
theorem AliasForm.text_ne_nil (keyword : String) (form : AliasForm) : form.text keyword ≠ [] :=
  List.append_ne_nil_of_left_ne_nil (by decide) _

/-- The parts of a type name for a tag. -/
def AliasForm.parts (form : AliasForm) : Marks Part :=
  [(.tag, form.tag.chars), (.name, form.name.chars)]

/-- Type names for tags are written from their forms. -/
theorem writes_aliasPattern (keyword : String) :
    Writes (aliasPattern keyword) (AliasForm.text keyword) AliasForm.parts := by
  have hname := Writes.lit " " (writes_name.cons (Writes.lit ";" .nil))
  have htag := Writes.lit " " (((Writes.token isWord).mark Part.tag).cons hname)
  exact (Writes.lit "typedef " (Writes.lit keyword htag)).along
    (fun form : AliasForm => (form.tag, form.name, ())) fun ⟨tag, name, ()⟩ => ⟨⟨tag, name⟩, rfl⟩

/-- What a struct with a type name is written from. -/
structure AliasedStructForm where
  /-- The tag with what stands in front of it, if it is written. -/
  tag : Option (Token isBlank × Name)
  /-- What stands in front of the body. -/
  gap : Stretch isBlank
  /-- The members. -/
  members : Token inStructBody
  /-- What stands behind the body. -/
  behind : Stretch isBlank
  /-- The type name. -/
  name : Name

/-- The tag as it is written, with what stands in front of it. -/
def AliasedStructForm.tagText (form : AliasedStructForm) : List Char :=
  form.tag.elim [] fun tag => tag.1.chars ++ tag.2.chars

/-- The text of a struct with a type name. -/
def AliasedStructForm.text (form : AliasedStructForm) : List Char :=
  "typedef struct".toList ++ (form.tagText ++ (form.gap.chars ++ ('\x7b' ::
    (form.members.chars ++ ('\x7d' :: (form.behind.chars ++ (form.name.chars ++ [';'])))))))

/-- What stands in front of the body of a struct with a type name. -/
def AliasedStructForm.head (form : AliasedStructForm) : List Char :=
  "typedef struct".toList ++ (form.tagText ++ form.gap.chars)

/-- What stands behind the opening brace of a struct with a type name. -/
def AliasedStructForm.tail (form : AliasedStructForm) : List Char :=
  form.members.chars ++ '\x7d' :: (form.behind.chars ++ (form.name.chars ++ [';']))

/-- A struct with a type name is written from what stands in front of its body
and behind the opening brace. -/
theorem AliasedStructForm.text_eq (form : AliasedStructForm) :
    form.text = form.head ++ '\x7b' :: form.tail := by
  unfold text head tail
  generalize "typedef struct".toList = front
  simp only [List.append_assoc]

/-- A struct with a type name has a character. -/
theorem AliasedStructForm.text_ne_nil (form : AliasedStructForm) : form.text ≠ [] :=
  List.append_ne_nil_of_left_ne_nil (by decide) _

/-- The parts of a struct with a type name. -/
def AliasedStructForm.parts (form : AliasedStructForm) : Marks Part :=
  form.tag.elim [] (fun tag => [(.tag, tag.2.chars)]) ++
    [(.body, form.members.chars), (.name, form.name.chars)]

/-- Structs with a type name are written from their forms. -/
theorem writes_aliasedStructPattern :
    Writes aliasedStructPattern AliasedStructForm.text AliasedStructForm.parts := by
  have hname := (Writes.stretch isBlank).cons (writes_name.cons (Writes.lit ";" .nil))
  have hgap := (Writes.stretch isBlank).cons (writes_body_cons inStructBody hname)
  have htag := (Writes.token isBlank).cons ((Writes.token isWord).mark Part.tag).last
  have hword := Writes.lit "typedef struct" (htag.optional.cons hgap)
  exact hword.along
    (fun form : AliasedStructForm =>
      (form.tag, form.gap, form.members, form.behind, form.name, ()))
    fun ⟨tag, gap, members, behind, name, ()⟩ => ⟨⟨tag, gap, members, behind, name⟩, rfl⟩

end HeaderExports.Grammar
