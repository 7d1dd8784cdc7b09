import HeaderExports.Proofs.Json.Rendering
import HeaderExports.Proofs.Json.Spellings
import Mathlib.Data.Bool.AllAny

/-!
# JSON values and their texts

A value is a text in quotes, another scalar, a list of values, or an object with
a value under each of its keys, every piece of which is well formed by its type.
A value has one sequence of tokens, and a text of the value is that sequence
with any space in front of the tokens and behind the last one.
-/

namespace HeaderExports.Json

/-! ## Scalars -/

/-- The whole part of a number: a zero, or digits that do not begin with one. -/
inductive IsWhole : List Char → Prop where
  /-- A zero alone. -/
  | zero : IsWhole ['0']
  /-- Digits. -/
  | digits {c : Char} {more : List Char} (leading : c ≠ '0') (first : isDigit c = true)
      (others : ∀ d ∈ more, isDigit d = true) : IsWhole (c :: more)

/-- The fraction of a number: nothing, or digits behind a point. -/
inductive IsFraction : List Char → Prop where
  /-- No fraction. -/
  | none : IsFraction []
  /-- A point and digits. -/
  | digits {c : Char} {more : List Char} (first : isDigit c = true)
      (others : ∀ d ∈ more, isDigit d = true) : IsFraction ('.' :: c :: more)

/-- The exponent of a number: nothing, or digits behind a letter and perhaps a
sign. -/
inductive IsExponent : List Char → Prop where
  /-- No exponent. -/
  | none : IsExponent []
  /-- A letter, a sign or none, and digits. -/
  | digits {letter c : Char} {sign more : List Char} (marked : letter = 'e' ∨ letter = 'E')
      (signed : sign = [] ∨ sign = ['+'] ∨ sign = ['-']) (first : isDigit c = true)
      (others : ∀ d ∈ more, isDigit d = true) : IsExponent (letter :: (sign ++ c :: more))

/-- The texts of the values that are no text, list or object. -/
inductive IsScalar : List Char → Prop where
  /-- The null value. -/
  | null : IsScalar ['n', 'u', 'l', 'l']
  /-- The true value. -/
  | true : IsScalar ['t', 'r', 'u', 'e']
  /-- The false value. -/
  | false : IsScalar ['f', 'a', 'l', 's', 'e']
  /-- A number. -/
  | number {sign whole fraction exponent : List Char} (signed : sign = [] ∨ sign = ['-'])
      (isWhole : IsWhole whole) (isFraction : IsFraction fraction)
      (isExponent : IsExponent exponent) :
      IsScalar (sign ++ (whole ++ (fraction ++ exponent)))

/-- A value that is no text, list or object. -/
structure Scalar where
  /-- The value as it is written. -/
  text : List Char
  /-- It is written as such a value. -/
  valid : IsScalar text

/-! ## Values and tokens -/

/-- A JSON value. -/
inductive Value where
  /-- A text, by its pieces. -/
  | text (pieces : List Piece)
  /-- A number, a truth value or null. -/
  | scalar (scalar : Scalar)
  /-- A list of values. -/
  | list (items : List Value)
  /-- Values under keys, which are given by their pieces. -/
  | object (members : List (List Piece × Value))

/-- What holds of texts and scalars, of lists if it holds of their items, and of
objects if it holds of the values of their members, holds of every value. -/
@[elab_as_elim]
theorem Value.items_induction {motive : Value → Prop} (text : ∀ pieces, motive (.text pieces))
    (scalar : ∀ literal, motive (.scalar literal))
    (list : ∀ items, (∀ item ∈ items, motive item) → motive (.list items))
    (object : ∀ members, (∀ member ∈ members, motive member.2) → motive (.object members)) :
    ∀ value, motive value
  | .text pieces => text pieces
  | .scalar literal => scalar literal
  | .list items => list items fun item _ => Value.items_induction text scalar list object item
  | .object members =>
    object members fun member _ => Value.items_induction text scalar list object member.2
termination_by value => sizeOf value
decreasing_by
  · have hitem := List.sizeOf_lt_of_mem ‹item ∈ items›
    simp only [Value.list.sizeOf_spec]
    omega
  · have hmember := List.sizeOf_lt_of_mem ‹member ∈ members›
    obtain ⟨key, value⟩ := member
    simp only [Value.object.sizeOf_spec, Prod.mk.sizeOf_spec] at hmember ⊢
    omega

/-- A token. -/
inductive Token where
  /-- The bracket in front of a list. -/
  | openList
  /-- The bracket behind a list. -/
  | closeList
  /-- The brace in front of an object. -/
  | openObject
  /-- The brace behind an object. -/
  | closeObject
  /-- The comma between items and between members. -/
  | comma
  /-- The colon between a key and its value. -/
  | colon
  /-- A text or a key, by its pieces. -/
  | quoted (pieces : List Piece)
  /-- A number, a truth value or null. -/
  | scalar (scalar : Scalar)

/-- The characters of a token. -/
def Token.text : Token → List Char
  | openList => ['[']
  | closeList => [']']
  | openObject => ['\x7b']
  | closeObject => ['\x7d']
  | comma => [',']
  | colon => [':']
  | quoted pieces => '"' :: (unquoted pieces ++ ['"'])
  | scalar literal => literal.text

/-- What stands in front of an item or a member: nothing in front of the first
one. -/
def separator (first : Bool) : List Token := if first then [] else [.comma]

namespace Value

mutual

/-- The tokens of a value. -/
def tokens : Value → List Token
  | .text pieces => [.quoted pieces]
  | .scalar literal => [.scalar literal]
  | .list items => .openList :: (itemsTokens true items ++ [.closeList])
  | .object members => .openObject :: (membersTokens true members ++ [.closeObject])

/-- The tokens of the items of a list. -/
def itemsTokens (first : Bool) : List Value → List Token
  | [] => []
  | item :: more => separator first ++ (tokens item ++ itemsTokens false more)

/-- The tokens of a member. -/
def memberTokens : List Piece × Value → List Token
  | (key, value) => .quoted key :: .colon :: tokens value

/-- The tokens of the members of an object. -/
def membersTokens (first : Bool) : List (List Piece × Value) → List Token
  | [] => []
  | member :: more => separator first ++ (memberTokens member ++ membersTokens false more)

end

end Value

/-- A text is made of tokens in their order, with space in front of each of them
and behind the last one. -/
inductive Laid : List Token → List Char → Prop where
  /-- Nothing but space is left. -/
  | ending {space : List Char} (blank : ∀ c ∈ space, isSpace c = true) : Laid [] space
  /-- Space and a token in front of more of them. -/
  | token {token : Token} {tokens : List Token} {space text : List Char}
      (blank : ∀ c ∈ space, isSpace c = true) (more : Laid tokens text) :
      Laid (token :: tokens) (space ++ (token.text ++ text))

/-- A part of a text is left that is made of tokens and shorter than the whole. -/
structure Leaves (tokens : List Token) (text rest : List Char) : Prop where
  /-- The rest is made of the tokens. -/
  laid : Laid tokens rest
  /-- Something is taken off the text. -/
  shorter : rest.length < text.length

/-- Tokens with the same space in front of each of them are a text. -/
theorem laid_flatMap {space : List Char} (hs : ∀ c ∈ space, isSpace c = true)
    (tokens : List Token) : Laid tokens (tokens.flatMap fun token => space ++ token.text) := by
  induction tokens with
  | nil => exact .ending (List.forall_mem_nil _)
  | cons token tokens ih =>
    rw [List.flatMap_cons, List.append_assoc]
    exact .token hs ih

/-! ## First characters -/

/-- A number, a truth value or null begins with one of its first characters. -/
theorem IsScalar.begins {text : List Char} (hs : IsScalar text) :
    ∃ c more, text = c :: more ∧ (c ∈ ['n', 't', 'f', '-'] ∨ isDigit c = Bool.true) := by
  cases hs with
  | null => exact ⟨_, _, rfl, .inl (by decide)⟩
  | true => exact ⟨_, _, rfl, .inl (by decide)⟩
  | false => exact ⟨_, _, rfl, .inl (by decide)⟩
  | number signed isWhole =>
    rcases signed with rfl | rfl
    · cases isWhole with
      | zero => exact ⟨_, _, rfl, .inr rfl⟩
      | digits leading first others => exact ⟨_, _, rfl, .inr first⟩
    · exact ⟨_, _, rfl, .inl (by decide)⟩

/-- A character that no number, truth value or null begins with is not the first
one of such a value. -/
theorem IsScalar.ne_cons {text : List Char} (hs : IsScalar text) {c : Char} (more : List Char)
    (hc : c ∉ ['n', 't', 'f', '-'] ∧ isDigit c = Bool.false) : text ≠ c :: more := by
  obtain ⟨first, rest, rfl, hfirst⟩ := hs.begins
  intro he
  rw [(List.cons.inj he).1] at hfirst
  rcases hfirst with hm | hd
  · exact hc.1 hm
  · rw [hc.2] at hd
    exact Bool.false_ne_true hd

/-- A token begins with a character that is no space. -/
theorem Token.begins (token : Token) : ∃ c more, token.text = c :: more ∧ isSpace c = false := by
  cases token with
  | scalar literal =>
    obtain ⟨c, more, he, -⟩ := literal.valid.begins
    refine ⟨c, more, he, ?_⟩
    by_contra hspace
    have blank : ∀ c ∈ [' ', '\n', '\t', '\r'], c ∉ ['n', 't', 'f', '-'] ∧ isDigit c = false :=
      List.all_iff_forall_prop.mp (by decide)
    have hm : c ∈ [' ', '\n', '\t', '\r'] := by
      simpa only [isSpace, Bool.not_eq_false, Bool.or_eq_true, beq_iff_eq, or_assoc,
        List.mem_cons, List.not_mem_nil, or_false] using hspace
    exact literal.valid.ne_cons more (blank c hm) he
  | _ => exact ⟨_, _, rfl, rfl⟩

/-! ## Space -/

/-- Dropping space makes no text longer. -/
theorem length_skipSpace_le (text : List Char) : (skipSpace text).length ≤ text.length :=
  (List.dropWhile_suffix isSpace).length_le

/-- Where no tokens are left, space is all that is left. -/
theorem Laid.skipSpace_nil {text : List Char} (hl : Laid [] text) : skipSpace text = [] := by
  cases hl with
  | ending blank => exact List.dropWhile_eq_nil_iff.mpr blank

/-- Behind the space stands the first token, and behind that the others. -/
theorem Laid.skipSpace_cons {token : Token} {tokens : List Token} {text : List Char}
    (hl : Laid (token :: tokens) text) :
    ∃ rest, skipSpace text = token.text ++ rest ∧ Leaves tokens text rest := by
  cases hl with
  | @token _ _ space rest blank more =>
    obtain ⟨c, others, he, hc⟩ := token.begins
    refine ⟨rest, ?_, more, ?_⟩
    · rw [skipSpace_append blank, he, List.cons_append, Json.skipSpace_cons hc]
    · rw [he, List.length_append, List.length_append, List.length_cons]
      omega

/-- Without the space in front, a text is made of the same tokens. -/
theorem Laid.of_skipSpace {tokens : List Token} {text : List Char} (hl : Laid tokens text) :
    Laid tokens (skipSpace text) := by
  cases tokens with
  | nil =>
    rw [hl.skipSpace_nil]
    exact .ending (List.forall_mem_nil _)
  | cons token tokens =>
    obtain ⟨rest, he, hrest⟩ := hl.skipSpace_cons
    rw [he]
    exact .token (List.forall_mem_nil _) hrest.laid

/-- What is left behind something shorter is left behind the whole. -/
theorem Leaves.trans {tokens others : List Token} {text middle rest : List Char}
    (hr : Leaves tokens middle rest) (hm : Leaves others text middle) : Leaves tokens text rest :=
  ⟨hr.laid, hr.shorter.trans hm.shorter⟩

/-- The tokens of a value begin a value, so that no list ends with them. -/
theorem Laid.value_begins {value : Value} {tokens : List Token} {text : List Char}
    (hl : Laid (value.tokens ++ tokens) text) :
    ∃ c more, skipSpace text = c :: more ∧ c ≠ ']' := by
  cases value with
  | text pieces =>
    rw [Value.tokens, List.singleton_append] at hl
    obtain ⟨rest, he, -⟩ := hl.skipSpace_cons
    exact ⟨'"', _, he, by decide⟩
  | scalar literal =>
    rw [Value.tokens, List.singleton_append] at hl
    obtain ⟨rest, he, -⟩ := hl.skipSpace_cons
    obtain ⟨c, more, hc, -⟩ := literal.valid.begins
    refine ⟨c, more ++ rest, ?_, ?_⟩
    · rw [he, Token.text, hc, List.cons_append]
    · rintro rfl
      exact literal.valid.ne_cons more (by decide) hc
  | list items =>
    rw [Value.tokens, List.cons_append] at hl
    obtain ⟨rest, he, -⟩ := hl.skipSpace_cons
    exact ⟨'[', _, he, by decide⟩
  | object members =>
    rw [Value.tokens, List.cons_append] at hl
    obtain ⟨rest, he, -⟩ := hl.skipSpace_cons
    exact ⟨'\x7b', _, he, by decide⟩

end HeaderExports.Json
