import HeaderExports.Proofs.Json.Values

/-!
# Values are skipped

Skipping a value stops directly behind its tokens, whatever the value is and
however deeply it is nested. What is left to skip is a stage. One stage goes on
to another one if some of the remaining steps lead there and enough of them are
left; the way through a list or an object is put together from such runs.
-/

namespace HeaderExports.Json

/-! ## Scalars -/

/-- A text does not go on with what a number may hold. -/
def Ends (text : List Char) : Prop :=
  ∀ c ∈ text.head?, c ∈ [' ', '\n', '\t', '\r', ',', ']', '\x7d']

/-- The character behind a number is not among those a number may go on with. -/
theorem Ends.head {text : List Char} (he : Ends text) :
    ∀ c ∈ text.head?, isDigit c = false ∧ c ≠ '.' ∧ c ≠ 'e' ∧ c ≠ 'E' := by
  have table : ∀ c ∈ [' ', '\n', '\t', '\r', ',', ']', '\x7d'],
      isDigit c = false ∧ c ≠ '.' ∧ c ≠ 'e' ∧ c ≠ 'E' :=
    List.all_iff_forall_prop.mp (by decide)
  exact fun c hc => table c (he c hc)

/-- The tokens that may follow a value inside a list or an object. -/
def Token.closes : Token → Bool
  | comma | closeList | closeObject => true
  | _ => false

/-- A text whose first token may follow a value does not go on with what a number
may hold. -/
theorem Laid.ends {tokens : List Token} {text : List Char} (hl : Laid tokens text)
    (hc : ∀ token ∈ tokens.head?, token.closes = true) : Ends text := by
  have blank {c : Char} (hc : isSpace c = true) :
      c ∈ [' ', '\n', '\t', '\r', ',', ']', '\x7d'] := by
    simp only [isSpace, Bool.or_eq_true, beq_iff_eq, or_assoc] at hc
    rcases hc with rfl | rfl | rfl | rfl <;> decide
  intro c hm
  cases hl with
  | ending hblank => exact blank (hblank c (List.mem_of_mem_head? hm))
  | @token token _ space text hblank =>
    cases space with
    | cons first space =>
      have hfirst := blank (hblank first List.mem_cons_self)
      cases hm
      exact hfirst
    | nil =>
      have hcloses := hc token rfl
      cases token with
      | comma | closeList | closeObject =>
        cases hm
        decide
      | _ => cases hcloses

/-- The name of a literal value is passed over. -/
theorem readName_append (letters rest : List Char) :
    readName letters (letters ++ rest) = .ok rest := by
  induction letters with
  | nil => rw [List.nil_append, readName]
  | cons c letters ih => rw [List.cons_append, readName, if_pos rfl, ih]

/-- A run of digits is dropped where no further one follows. -/
theorem dropDigits_append {digits rest : List Char} (hd : ∀ d ∈ digits, isDigit d = true)
    (hr : ∀ c ∈ rest.head?, isDigit c = false) (count : ℕ) :
    dropDigits count (digits ++ rest) = (count + digits.length, rest) := by
  induction digits generalizing count with
  | nil =>
    cases rest with
    | nil => rfl
    | cons c rest =>
      rw [List.nil_append, dropDigits, hr c rfl]
      rfl
  | cons d digits ih =>
    rw [List.cons_append, dropDigits, if_pos (hd d List.mem_cons_self),
      ih fun d hm => hd d (List.mem_cons_of_mem _ hm)]
    rw [List.length_cons, Nat.add_right_comm, Nat.add_assoc]

/-- An exponent, or none, is skipped. -/
theorem IsExponent.skip {exponent rest : List Char} (hx : IsExponent exponent) (he : Ends rest) :
    skipAfterDigits (exponent ++ rest) = .ok rest := by
  cases hx with
  | none => exact skipAfterDigits_of_head fun c hc => (he.head c hc).2.2
  | @digits letter c sign more marked signed first others =>
    have drop : (dropDigits 0 (more ++ rest)).2 = rest := by
      rw [dropDigits_append others fun c hc => (he.head c hc).1]
    have plain : skipExponent (sign ++ (c :: (more ++ rest))) = .ok rest := by
      rcases signed with rfl | rfl | rfl
      · have hplus : c ≠ '+' := by
          rintro rfl
          cases first
        have hminus : c ≠ '-' := by
          rintro rfl
          cases first
        rw [List.nil_append, skipExponent]
        · simp only [first, if_true, drop]
        · exact fun _ h => hplus (List.cons.inj h).1
        · exact fun _ h => hminus (List.cons.inj h).1
      · simp only [skipExponent, List.singleton_append, first, if_true, drop]
      · simp only [skipExponent, List.singleton_append, first, if_true, drop]
    rcases marked with rfl | rfl <;>
      simpa only [List.cons_append, List.append_assoc, skipAfterDigits] using plain

/-- Behind a fraction stands no further digit and no second point. -/
theorem IsExponent.head {exponent rest : List Char} (hx : IsExponent exponent) (he : Ends rest) :
    ∀ c ∈ (exponent ++ rest).head?, isDigit c = false ∧ c ≠ '.' := by
  intro c hm
  cases hx with
  | none => exact ⟨(he.head c hm).1, (he.head c hm).2.1⟩
  | digits marked =>
    cases hm
    rcases marked with rfl | rfl <;> decide

/-- Behind a whole part stands no further digit. -/
theorem IsFraction.head {fraction exponent rest : List Char} (hf : IsFraction fraction)
    (hx : IsExponent exponent) (he : Ends rest) :
    ∀ c ∈ (fraction ++ (exponent ++ rest)).head?, isDigit c = false := by
  intro c hm
  cases hf with
  | none => exact (hx.head he c hm).1
  | digits =>
    cases hm
    rfl

/-- A fraction and an exponent, if there are any, are skipped. -/
theorem IsFraction.skip {fraction exponent rest : List Char} (hf : IsFraction fraction)
    (hx : IsExponent exponent) (he : Ends rest) :
    skipAfterWhole (fraction ++ (exponent ++ rest)) = .ok rest := by
  have behind := hx.head he
  cases hf with
  | none => exact (skipAfterWhole_of_head fun c hc => (behind c hc).2).trans (hx.skip he)
  | @digits c more first others =>
    have hd : ∀ d ∈ c :: more, isDigit d = true := List.forall_mem_cons.mpr ⟨first, others⟩
    have drop := dropDigits_append hd (fun c hc => (behind c hc).1) 0
    rw [List.length_cons, Nat.zero_add, List.cons_append] at drop
    simp only [List.cons_append, skipAfterWhole, drop, hx.skip he]

/-- A number is skipped behind its sign. -/
theorem IsWhole.skip {whole fraction exponent rest : List Char} (hw : IsWhole whole)
    (hf : IsFraction fraction) (hx : IsExponent exponent) (he : Ends rest) :
    skipNumber (whole ++ (fraction ++ (exponent ++ rest))) = .ok rest := by
  have hnone := hf.head hx he
  cases hw with
  | zero =>
    have hdigit : ((fraction ++ (exponent ++ rest)).head?.any isDigit) = false := by
      rw [Option.any_eq_false]
      exact hnone
    simp only [List.singleton_append, skipNumber, if_true, hdigit, Bool.false_eq_true, if_false,
      hf.skip hx he]
  | digits leading first others =>
    have drop := dropDigits_append others hnone 0
    simp only [List.cons_append, skipNumber, leading, if_false, first, if_true, drop,
      hf.skip hx he]

/-- A number, a truth value or null is skipped. -/
theorem IsScalar.skip {text rest : List Char} (hs : IsScalar text) (he : Ends rest) :
    skipScalar (text ++ rest) = .ok rest := by
  cases hs with
  | null => exact readName_append ['u', 'l', 'l'] rest
  | true => exact readName_append ['r', 'u', 'e'] rest
  | false => exact readName_append ['a', 'l', 's', 'e'] rest
  | number signed isWhole isFraction isExponent =>
    have skip := isWhole.skip isFraction isExponent he
    rw [List.append_assoc, List.append_assoc, List.append_assoc]
    rcases signed with rfl | rfl
    · cases isWhole with
      | zero => exact (skipScalar_digit rfl _).trans skip
      | digits leading first others => exact (skipScalar_digit first _).trans skip
    · rw [List.singleton_append, skipScalar]
      exact skip

/-! ## Stages -/

/-- What is left to skip, the brackets that are open, and the text. -/
structure Stage where
  /-- What is left to skip. -/
  pending : Pending
  /-- The open brackets, the innermost first. -/
  opened : List Bracket
  /-- The text that is left. -/
  text : List Char

/-- The steps that a stage needs beyond three for every character. -/
def Pending.steps : Pending → ℕ
  | value => 1
  | item => 2
  | more _ => 3

/-- Skipping from a stage with a number of steps. -/
def Stage.skip (limit : ℕ) (stage : Stage) : Except Fault (List Char) :=
  skipFrom limit stage.pending stage.opened stage.text

/-- The number of steps that is enough from a stage on. -/
def Stage.enough (stage : Stage) : ℕ := 3 * stage.text.length + stage.pending.steps

/-- With enough steps for the first stage the second one is reached, and enough
of them are left for it. -/
def Stage.Continues (stage next : Stage) : Prop :=
  ∀ limit, stage.enough ≤ limit → ∃ left, next.enough ≤ left ∧ stage.skip limit = next.skip left

/-- A stage that goes on to one that goes on to a third goes on to that. -/
theorem Stage.Continues.trans {stage middle next : Stage} (hs : stage.Continues middle)
    (hm : middle.Continues next) : stage.Continues next := by
  intro limit hl
  obtain ⟨left, hleft, he⟩ := hs limit hl
  obtain ⟨last, hlast, hn⟩ := hm left hleft
  exact ⟨last, hlast, he.trans hn⟩

/-- A stage that takes one step to another one goes on to it, if that one needs
fewer steps. -/
theorem Stage.Continues.step {stage next : Stage} (hl : next.enough < stage.enough)
    (hs : ∀ limit, stage.skip (limit + 1) = next.skip limit) : stage.Continues next := by
  intro limit hlimit
  obtain ⟨limit, rfl⟩ := Nat.exists_eq_succ_of_ne_zero (n := limit) (by omega)
  exact ⟨limit, by omega, hs limit⟩

/-- The character that opens a bracket. -/
def Bracket.opening : Bracket → Char
  | list => '['
  | object => '\x7b'

section
variable {bracket : Bracket} {opened : List Bracket} {text rest : List Char}

/-- Behind its opening bracket a list or an object is open. -/
theorem Stage.continues_open (ht : skipSpace text = bracket.opening :: rest) :
    Stage.Continues ⟨.value, opened, text⟩ ⟨.more false, bracket :: opened, rest⟩ := by
  have hshort := length_skipSpace_le text
  rw [ht, List.length_cons] at hshort
  refine .step ?_ fun limit => ?_
  · simp only [Stage.enough, Pending.steps]
    omega
  · cases bracket <;> simp only [Bracket.opening] at ht <;> simp only [Stage.skip, skipFrom, ht]

/-- A value without brackets is skipped as a scalar. -/
theorem Stage.continues_scalar (hlist : ∀ more, skipSpace text ≠ '[' :: more)
    (hobject : ∀ more, skipSpace text ≠ '\x7b' :: more)
    (hs : skipScalar (skipSpace text) = .ok rest) (hr : rest.length < text.length) :
    Stage.Continues ⟨.value, opened, text⟩ ⟨.more true, opened, rest⟩ := by
  refine .step ?_ fun limit => ?_
  · simp only [Stage.enough, Pending.steps]
    omega
  · simp only [Stage.skip, skipFrom]
    -- The brackets are ruled out by hypothesis; what is split is the result of the scalar.
    split
    · next h =>
      rw [hs] at h
      cases h
    · next h =>
      rw [hs] at h
      cases h
      rfl

/-- A bracket that is closed ends a value. -/
theorem Stage.continues_close (afterItem : Bool) (ht : skipSpace text = bracket.closing :: rest) :
    Stage.Continues ⟨.more afterItem, bracket :: opened, text⟩ ⟨.more true, opened, rest⟩ := by
  have hshort := length_skipSpace_le text
  have hcomma : bracket.closing ≠ ',' := by cases bracket <;> decide
  rw [ht, List.length_cons] at hshort
  refine .step ?_ fun limit => ?_
  · simp only [Stage.enough, Pending.steps]
    omega
  · simp only [Stage.skip, skipFrom, ht, hcomma, false_and, if_false, if_true]

/-- Behind a comma stands an item. -/
theorem Stage.continues_comma (ht : skipSpace text = ',' :: rest) :
    Stage.Continues ⟨.more true, bracket :: opened, text⟩ ⟨.item, bracket :: opened, rest⟩ := by
  have hshort := length_skipSpace_le text
  rw [ht, List.length_cons] at hshort
  refine .step ?_ fun limit => ?_
  · simp only [Stage.enough, Pending.steps]
    omega
  · simp only [Stage.skip, skipFrom, ht, and_self, if_true]

/-- Behind an opening bracket stands an item, if it is not closed at once. -/
theorem Stage.continues_first {c : Char} (ht : skipSpace text = c :: rest)
    (hc : c ≠ bracket.closing) :
    Stage.Continues ⟨.more false, bracket :: opened, text⟩
      ⟨.item, bracket :: opened, skipSpace text⟩ := by
  have hshort := length_skipSpace_le text
  refine .step ?_ fun limit => ?_
  · simp only [Stage.enough, Pending.steps]
    omega
  · simp only [Stage.skip, skipFrom, ht, hc, Bool.false_eq_true, and_false, if_false]

/-- An item of a list is a value. -/
theorem Stage.continues_item :
    Stage.Continues ⟨.item, .list :: opened, text⟩ ⟨.value, .list :: opened, text⟩ := by
  refine .step ?_ fun limit => ?_
  · simp only [Stage.enough, Pending.steps]
    omega
  · simp only [Stage.skip, skipFrom]

/-- An item of an object is a value behind its key. -/
theorem Stage.continues_key (hk : skipKey text = .ok rest) (hr : rest.length < text.length) :
    Stage.Continues ⟨.item, .object :: opened, text⟩ ⟨.value, .object :: opened, rest⟩ := by
  refine .step ?_ fun limit => ?_
  · simp only [Stage.enough, Pending.steps]
    omega
  · simp only [Stage.skip, skipFrom, hk]

end

/-! ## Whole values -/

/-- From the tokens of a value on, with any brackets open, skipping goes on to the
text behind the value. -/
def Value.Skips (value : Value) : Prop :=
  ∀ {opened : List Bracket} {tokens : List Token} {text : List Char},
    (∀ token ∈ tokens.head?, token.closes = true) → Laid (value.tokens ++ tokens) text →
      ∃ rest, Leaves tokens text rest ∧
        Stage.Continues ⟨.value, opened, text⟩ ⟨.more true, opened, rest⟩

/-- A text in quotes is skipped. -/
theorem skips_text (pieces : List Piece) : (Value.text pieces).Skips := by
  intro opened tokens text _ hl
  rw [Value.tokens, List.singleton_append] at hl
  obtain ⟨rest, he, hrest⟩ := hl.skipSpace_cons
  obtain ⟨content, hread⟩ := readQuoted_false pieces rest
  have hquote : skipSpace text = '"' :: (unquoted pieces ++ '"' :: rest) := by
    rw [he, Token.text, List.cons_append, List.append_assoc, List.singleton_append]
  refine ⟨rest, hrest, Stage.continues_scalar ?_ ?_ ?_ hrest.shorter⟩
  · rw [hquote]
    exact fun more h => absurd (List.cons.inj h).1 (by decide)
  · rw [hquote]
    exact fun more h => absurd (List.cons.inj h).1 (by decide)
  · rw [hquote, skipScalar, hread]
    rfl

/-- A number, a truth value or null is skipped. -/
theorem skips_scalar (literal : Scalar) : (Value.scalar literal).Skips := by
  intro opened tokens text hc hl
  rw [Value.tokens, List.singleton_append] at hl
  obtain ⟨rest, he, hrest⟩ := hl.skipSpace_cons
  obtain ⟨c, more, hfirst, -⟩ := literal.valid.begins
  have begins {d : Char} {others : List Char} (hd : d ∉ ['n', 't', 'f', '-'] ∧ isDigit d = false)
      (h : skipSpace text = d :: others) : False := by
    rw [he, Token.text, hfirst, List.cons_append] at h
    rw [(List.cons.inj h).1] at hfirst
    exact literal.valid.ne_cons more hd hfirst
  refine ⟨rest, hrest, Stage.continues_scalar ?_ ?_ ?_ hrest.shorter⟩
  · exact fun _ => begins (by decide)
  · exact fun _ => begins (by decide)
  · rw [he]
    exact literal.valid.skip (hrest.laid.ends hc)

/-- A further item is found behind a comma, the first one behind the bracket. -/
theorem continues_separator (bracket : Bracket) (opened : List Bracket) {first : Bool}
    {tokens : List Token} {text : List Char}
    (hb : ∀ text, Laid tokens text → ∃ c rest, skipSpace text = c :: rest ∧ c ≠ bracket.closing)
    (hl : Laid (separator first ++ tokens) text) :
    ∃ rest, Laid tokens rest ∧ rest.length ≤ text.length ∧
      Stage.Continues ⟨.more (!first), bracket :: opened, text⟩
        ⟨.item, bracket :: opened, rest⟩ := by
  cases first with
  | true =>
    obtain ⟨c, rest, he, hc⟩ := hb text hl
    exact ⟨skipSpace text, hl.of_skipSpace, length_skipSpace_le text,
      Stage.continues_first he hc⟩
  | false =>
    obtain ⟨rest, he, hrest⟩ := Laid.skipSpace_cons hl
    exact ⟨rest, hrest.laid, hrest.shorter.le, Stage.continues_comma he⟩

/-- Items that are skipped one by one are skipped up to the end of their list. -/
theorem skips_items {items : List Value} (hi : ∀ item ∈ items, item.Skips) {first : Bool}
    {opened : List Bracket} {tokens : List Token} {text : List Char}
    (hl : Laid (Value.itemsTokens first items ++ .closeList :: tokens) text) :
    ∃ rest, Leaves tokens text rest ∧
      Stage.Continues ⟨.more (!first), .list :: opened, text⟩ ⟨.more true, opened, rest⟩ := by
  induction items generalizing first text with
  | nil =>
    obtain ⟨rest, he, hrest⟩ := Laid.skipSpace_cons hl
    exact ⟨rest, hrest, Stage.continues_close _ he⟩
  | cons item items ih =>
    rw [Value.itemsTokens, List.append_assoc, List.append_assoc] at hl
    obtain ⟨inside, hinside, hlength, next⟩ :=
      continues_separator .list opened (fun _ => Laid.value_begins) hl
    have hclose : ∀ token ∈ (Value.itemsTokens false items ++ Token.closeList :: tokens).head?,
        token.closes = true := by
      intro token hm
      cases items <;> cases hm <;> rfl
    obtain ⟨behind, hbehind, skip⟩ := hi item List.mem_cons_self hclose hinside
    obtain ⟨rest, hrest, close⟩ := ih (fun i hm => hi i (List.mem_cons_of_mem _ hm)) hbehind.laid
    have hshort := hrest.shorter.trans (hbehind.shorter.trans_le hlength)
    exact ⟨rest, ⟨hrest.laid, hshort⟩, next.trans (Stage.continues_item.trans (skip.trans close))⟩

/-- A key and its colon are skipped. -/
theorem skipKey_tokens {pieces : List Piece} {tokens : List Token} {text : List Char}
    (hl : Laid (.quoted pieces :: .colon :: tokens) text) :
    ∃ rest, skipKey text = .ok rest ∧ Leaves tokens text rest := by
  obtain ⟨behind, he, hbehind⟩ := hl.skipSpace_cons
  obtain ⟨rest, hcolon, hrest⟩ := hbehind.laid.skipSpace_cons
  obtain ⟨content, hread⟩ := readQuoted_false pieces behind
  have hquote : skipSpace text = '"' :: (unquoted pieces ++ '"' :: behind) := by
    rw [he, Token.text, List.cons_append, List.append_assoc, List.singleton_append]
  rw [Token.text, List.singleton_append] at hcolon
  refine ⟨rest, ?_, hrest.trans hbehind⟩
  simp only [skipKey, hquote, hread, hcolon]

/-- Behind a member stands what may follow a value. -/
theorem closes_members {members : List (List Piece × Value)} {tokens : List Token} :
    ∀ token ∈ (Value.membersTokens false members ++ Token.closeObject :: tokens).head?,
      token.closes = true := by
  intro token hm
  cases members <;> cases hm <;> rfl

/-- Members whose values are skipped one by one are skipped up to the end of their
object. -/
theorem skips_members {members : List (List Piece × Value)}
    (hm : ∀ member ∈ members, member.2.Skips) {first : Bool} {opened : List Bracket}
    {tokens : List Token} {text : List Char}
    (hl : Laid (Value.membersTokens first members ++ .closeObject :: tokens) text) :
    ∃ rest, Leaves tokens text rest ∧
      Stage.Continues ⟨.more (!first), .object :: opened, text⟩ ⟨.more true, opened, rest⟩ := by
  induction members generalizing first text with
  | nil =>
    obtain ⟨rest, he, hrest⟩ := Laid.skipSpace_cons hl
    exact ⟨rest, hrest, Stage.continues_close _ he⟩
  | cons member members ih =>
    obtain ⟨key, value⟩ := member
    rw [Value.membersTokens, Value.memberTokens, List.append_assoc, List.append_assoc] at hl
    have hquote : ∀ text, Laid ((.quoted key :: .colon :: value.tokens) ++
        (Value.membersTokens false members ++ .closeObject :: tokens)) text →
        ∃ c rest, skipSpace text = c :: rest ∧ c ≠ '\x7d' := by
      intro text hl
      obtain ⟨rest, he, -⟩ := Laid.skipSpace_cons hl
      exact ⟨'"', _, he, by decide⟩
    obtain ⟨inside, hinside, hlength, next⟩ := continues_separator .object opened hquote hl
    obtain ⟨colon, hkey, hcolon⟩ := skipKey_tokens hinside
    obtain ⟨behind, hbehind, skip⟩ :=
      hm (key, value) List.mem_cons_self closes_members hcolon.laid
    obtain ⟨rest, hrest, close⟩ := ih (fun m h => hm m (List.mem_cons_of_mem _ h)) hbehind.laid
    have hshort := hrest.shorter.trans (hbehind.shorter.trans (hcolon.shorter.trans_le hlength))
    exact ⟨rest, ⟨hrest.laid, hshort⟩,
      next.trans ((Stage.continues_key hkey hcolon.shorter).trans (skip.trans close))⟩

/-- Every value is skipped. -/
theorem Value.skips (value : Value) : value.Skips := by
  induction value using Value.items_induction with
  | text pieces => exact skips_text pieces
  | scalar literal => exact skips_scalar literal
  | list items ih =>
    intro opened tokens text _ hl
    rw [Value.tokens, List.cons_append, List.append_assoc, List.singleton_append] at hl
    obtain ⟨inside, he, hinside⟩ := hl.skipSpace_cons
    obtain ⟨rest, hrest, close⟩ := skips_items ih hinside.laid
    exact ⟨rest, hrest.trans hinside, (Stage.continues_open he).trans close⟩
  | object members ih =>
    intro opened tokens text _ hl
    rw [Value.tokens, List.cons_append, List.append_assoc, List.singleton_append] at hl
    obtain ⟨inside, he, hinside⟩ := hl.skipSpace_cons
    obtain ⟨rest, hrest, close⟩ := skips_members ih hinside.laid
    exact ⟨rest, hrest.trans hinside, (Stage.continues_open he).trans close⟩

/-- Skipping a value stops directly behind it. -/
theorem skipValue_tokens {value : Value} {tokens : List Token} {text : List Char}
    (hc : ∀ token ∈ tokens.head?, token.closes = true)
    (hl : Laid (value.tokens ++ tokens) text) :
    ∃ rest, skipValue text = .ok rest ∧ Leaves tokens text rest := by
  obtain ⟨rest, hrest, skip⟩ := @Value.skips value [] tokens text hc hl
  obtain ⟨left, hleft, he⟩ :=
    skip (3 * text.length + 3) (Nat.add_le_add_left (Nat.le_add_left 1 2) _)
  refine ⟨rest, ?_, hrest⟩
  obtain ⟨left, rfl⟩ := Nat.exists_eq_succ_of_ne_zero
    (Nat.ne_of_gt (Nat.lt_of_lt_of_le (Nat.succ_pos _) hleft))
  exact he.trans (skipFrom_outside left true rest)

end HeaderExports.Json
