import HeaderExports.Text.Comment
import Mathlib.Data.List.Infix
import Mathlib.Tactic.Common

/-!
# Lexemes

A text is made of comments, literals and single characters. What begins at a
place is told by the first two characters there, and it runs on to the first
place that ends it. A text therefore has exactly one division into lexemes.
-/

namespace HeaderExports.Text

/-! ## The first place at which a text stops -/

section RunsOn

variable {stops : List Char → Char → Prop}

/-- No character of a text stops it, given the characters in front of it. -/
def RunsOn (stops : List Char → Char → Prop) (text : List Char) : Prop :=
  ∀ before c after, text = before ++ c :: after → ¬stops before c

/-- Nothing stops the empty text. -/
theorem runsOn_nil : RunsOn stops [] := by
  intro before c after he
  exact absurd he.symm (List.append_ne_nil_of_right_ne_nil before (List.cons_ne_nil c after))

/-- A text runs on over one more character if that does not stop it. -/
theorem runsOn_concat {text : List Char} {d : Char} (hr : RunsOn stops text)
    (hd : ¬stops text d) : RunsOn stops (text ++ [d]) := by
  intro before c after he
  rcases List.eq_nil_or_concat after with rfl | ⟨after, last, rfl⟩
  · obtain ⟨rfl, hlast⟩ := List.append_inj' he rfl
    rwa [← List.head_eq_of_cons_eq hlast]
  · rw [List.concat_eq_append, ← List.cons_append, ← List.append_assoc] at he
    exact hr before c after (List.append_inj' he rfl).1

/-- A text runs on behind its first character if that does not stop it. -/
theorem runsOn_cons_iff {c : Char} {text : List Char} :
    RunsOn stops (c :: text) ↔ ¬stops [] c ∧ RunsOn (fun before => stops (c :: before)) text := by
  constructor
  · intro hr
    exact ⟨hr [] c text rfl, fun before d after he => hr (c :: before) d after (by rw [he]; rfl)⟩
  · rintro ⟨hc, hr⟩ before d after he
    cases before with
    | nil =>
      obtain ⟨rfl, -⟩ := List.cons.inj he
      exact hc
    | cons b before =>
      obtain ⟨rfl, htext⟩ := List.cons.inj he
      exact hr before d after htext

instance RunsOn.decidable (stops : List Char → Char → Prop)
    [∀ before c, Decidable (stops before c)] : (text : List Char) → Decidable (RunsOn stops text)
  | [] => .isTrue runsOn_nil
  | c :: text =>
    have := RunsOn.decidable (fun before => stops (c :: before)) text
    decidable_of_iff _ runsOn_cons_iff.symm

/-- A text runs on to its end, or there is a first character that stops it. -/
theorem exists_first_stop (stops : List Char → Char → Prop) (text : List Char) :
    RunsOn stops text ∨
      ∃ before c after, text = before ++ c :: after ∧ RunsOn stops before ∧ stops before c := by
  induction text using List.reverseRecOn with
  | nil => exact .inl runsOn_nil
  | append_singleton text d ih =>
    rcases ih with hr | ⟨before, c, after, rfl, hr, hc⟩
    · by_cases hd : stops text d
      · exact .inr ⟨text, d, [], rfl, hr, hd⟩
      · exact .inl (runsOn_concat hr hd)
    · exact .inr ⟨before, c, after ++ [d], List.append_assoc _ _ _, hr, hc⟩

/-- The first character that stops a text stands at one place. -/
theorem first_stop_inj {u v r s : List Char} {c d : Char} (hu : RunsOn stops u)
    (hv : RunsOn stops v) (hc : stops u c) (hd : stops v d) (he : u ++ c :: r = v ++ d :: s) :
    u = v ∧ c = d ∧ r = s := by
  rcases List.append_eq_append_iff.mp he with ⟨t, ht, hrest⟩ | ⟨t, ht, hrest⟩
  · cases t with
    | nil => exact ⟨by rw [ht, List.append_nil], List.cons.inj hrest⟩
    | cons x t =>
      rw [← (List.cons.inj hrest).1] at ht
      exact absurd hc (hv u c t ht)
  · cases t with
    | nil =>
      obtain ⟨hdc, hsr⟩ := List.cons.inj hrest
      exact ⟨by rw [ht, List.append_nil], hdc.symm, hsr.symm⟩
    | cons x t =>
      rw [← (List.cons.inj hrest).1] at ht
      exact absurd hd (hu v d t ht)

end RunsOn

/-! ## What ends a lexeme -/

/-- What closes a block comment. -/
def closer : List Char := ['*', '/']

/-- Whether a character closes a block comment, given what stands between the
opener and it. -/
def EndsBlock (before : List Char) (c : Char) : Prop := c = '/' ∧ ∃ inside, before = inside ++ ['*']

/-- What stands behind the opener of a block comment runs on as long as it holds
no closer. -/
theorem runsOn_block_iff {text : List Char} : RunsOn EndsBlock text ↔ ¬closer <:+: text := by
  constructor
  · rintro hr ⟨inside, after, he⟩
    refine hr (inside ++ ['*']) '/' after ?_ ⟨rfl, inside, rfl⟩
    rw [← he, List.append_assoc, List.append_assoc]
    rfl
  · rintro hn before c after rfl ⟨rfl, inside, rfl⟩
    refine hn ⟨inside, after, ?_⟩
    rw [List.append_assoc, List.append_assoc]
    rfl

/-- The star of a closer makes no closer with what stands in front of it. -/
theorem closer_infix_concat_star_iff {text : List Char} :
    closer <:+: text ++ ['*'] ↔ closer <:+: text := by
  rw [List.infix_concat_iff, or_iff_right]
  intro hs
  have hlast := List.suffix_iff_eq_append.mp hs
  have := congrArg List.getLast? hlast
  simp [closer] at this

/-- Whether the character behind a text is escaped: the text ends in a
backslash that is not escaped itself. -/
def escapes (text : List Char) : Bool :=
  text.foldl (fun escaped c => c == '\\' && !escaped) false

/-- A text escapes what follows exactly if its last character is a backslash
that is not escaped. -/
theorem escapes_concat (text : List Char) (c : Char) :
    escapes (text ++ [c]) = (c == '\\' && !escapes text) := by
  rw [escapes, List.foldl_append]
  rfl

/-- A first character that is no backslash escapes nothing. -/
theorem escapes_cons_of_ne {c : Char} (hc : c ≠ '\\') (text : List Char) :
    escapes (c :: text) = escapes text := by
  rw [escapes, List.foldl_cons, beq_eq_false_iff_ne.mpr hc]
  rfl

/-- A backslash and the character that it escapes do not matter behind them. -/
theorem escapes_backslash_cons (c : Char) (text : List Char) :
    escapes ('\\' :: c :: text) = escapes text := by
  rw [escapes, List.foldl_cons, List.foldl_cons]
  simp only [beq_self_eq_true, Bool.not_false, Bool.and_self, Bool.not_true, Bool.and_false]
  rfl

/-- Whether a character ends a literal, given what stands between the opening
quote and it: the same quote and a line end do, unless they are escaped. -/
def EndsLiteral (quote : Char) (before : List Char) (c : Char) : Prop :=
  escapes before = false ∧ (c = quote ∨ c = '\n')

instance (quote : Char) (before : List Char) (c : Char) : Decidable (EndsLiteral quote before c) :=
  inferInstanceAs (Decidable (_ ∧ _))

/-! ## Lexemes -/

/-- The kinds of lexemes. -/
inductive LexemeKind where
  /-- A comment that a closer ends. -/
  | block
  /-- A comment that the line end ends. -/
  | line
  /-- A string or character literal. -/
  | literal
  /-- A character that belongs to none of the others. -/
  | single
  deriving DecidableEq, Repr

/-- The kind of the lexeme that begins with a character, given the character
behind it. -/
def kindOf (first : Char) (second : Option Char) : LexemeKind :=
  if first = '/' ∧ second = some '*' then .block
  else if first = '/' ∧ second = some '/' then .line
  else if isQuote first then .literal
  else .single

/-- A piece of a text. -/
inductive Lexeme where
  /-- A comment between its opener and a closer or the end of the text. -/
  | block (inside : List Char) (closed : Bool)
  /-- A comment between its opener and a line end or the end of the text. The
  line end is not part of it. -/
  | line (inside : List Char)
  /-- A literal between its quote and the character that ends it, if there is
  one. -/
  | literal (quote : Char) (inside : List Char) (last : Option Char)
  /-- A single character. -/
  | single (c : Char)
  deriving DecidableEq, Repr

namespace Lexeme

/-- The kind of a lexeme. -/
def kind : Lexeme → LexemeKind
  | block _ _ => .block
  | line _ => .line
  | literal _ _ _ => .literal
  | single _ => .single

/-- A lexeme as it is written. -/
def text : Lexeme → List Char
  | block inside closed => '/' :: '*' :: (inside ++ if closed then closer else [])
  | line inside => '/' :: '/' :: inside
  | literal quote inside last => quote :: (inside ++ last.toList)
  | single c => [c]

/-- Whether a lexeme is what a text begins with, given the rest of the text. A
block comment ends with the first closer behind its opener, a line comment in
front of the first line end, a literal with the first character that ends it,
and each of them with the text if there is none. All else is single characters. -/
def Fits : Lexeme → List Char → Prop
  | block inside closed, rest => ¬closer <:+: inside ∧ (closed = false → rest = [])
  | line inside, rest => '\n' ∉ inside ∧ ∀ c ∈ rest.head?, c = '\n'
  | literal quote inside (some last), _ =>
    isQuote quote = true ∧ RunsOn (EndsLiteral quote) inside ∧ EndsLiteral quote inside last
  | literal quote inside none, rest =>
    isQuote quote = true ∧ RunsOn (EndsLiteral quote) inside ∧ rest = []
  | single c, rest => kindOf c rest.head? = .single

instance : (lexeme : Lexeme) → (rest : List Char) → Decidable (lexeme.Fits rest)
  | block _ _, _ => inferInstanceAs (Decidable (_ ∧ (_ → _)))
  | line _, rest =>
    -- the general instance for characters would go through all of them
    have : Decidable (∀ c ∈ rest.head?, c = '\n') := Option.decidableForallMem rest.head?
    inferInstanceAs (Decidable (_ ∧ _))
  | literal _ _ (some _), _ => inferInstanceAs (Decidable (_ ∧ _ ∧ _))
  | literal _ _ none, _ => inferInstanceAs (Decidable (_ ∧ _ ∧ _))
  | single _, _ => inferInstanceAs (Decidable (_ = _))

end Lexeme

/-- A character is a lexeme of its own unless it is a quote or opens a comment. -/
theorem kindOf_eq_single_iff {first : Char} {second : Option Char} :
    kindOf first second = .single ↔
      isQuote first = false ∧ ¬(first = '/' ∧ (second = some '*' ∨ second = some '/')) := by
  unfold kindOf
  split_ifs <;> simp_all

/-- Other characters are no quotes. -/
theorem ne_of_isQuote {quote c : Char} (hq : isQuote quote = true) (hc : isQuote c = false) :
    quote ≠ c := by
  rintro rfl
  exact Bool.false_ne_true (hc.symm.trans hq)

/-- A quote opens a literal. -/
theorem kindOf_quote {quote : Char} (hq : isQuote quote = true) (second : Option Char) :
    kindOf quote second = .literal := by
  have hslash : quote ≠ '/' := ne_of_isQuote hq (by decide)
  rw [kindOf, if_neg fun h => hslash h.1, if_neg fun h => hslash h.1, if_pos hq]

/-- A text divided into lexemes. -/
inductive Lexes : List Char → List Lexeme → Prop
  /-- The empty text has none. -/
  | nil : Lexes [] []
  /-- A lexeme in front of the others. -/
  | cons {lexeme : Lexeme} {rest : List Char} {others : List Lexeme} (fits : lexeme.Fits rest)
      (more : Lexes rest others) : Lexes (lexeme.text ++ rest) (lexeme :: others)

namespace Lexeme

variable {lexeme lexeme' : Lexeme} {rest rest' : List Char}

/-- A lexeme has a character. -/
theorem text_ne_nil (lexeme : Lexeme) : lexeme.text ≠ [] := by
  cases lexeme <;> exact List.cons_ne_nil _ _

/-- A block comment that is closed, with the star of its closer told apart from
the slash. -/
theorem text_closed_block (inside rest : List Char) :
    (block inside true).text ++ rest = '/' :: '*' :: ((inside ++ ['*']) ++ '/' :: rest) := by
  rw [Lexeme.text, if_pos rfl, closer, List.cons_append, List.cons_append, List.append_assoc,
    List.append_assoc]
  rfl

/-- A block comment that nothing closes. -/
theorem text_open_block (inside : List Char) :
    (block inside false).text ++ [] = '/' :: '*' :: inside := by
  rw [Lexeme.text, if_neg Bool.false_ne_true, List.append_nil, List.append_nil]

/-- The first two characters of a text tell the kind of the lexeme with which it
begins. -/
theorem Fits.kindOf_eq (hf : lexeme.Fits rest) {c : Char} {tail : List Char}
    (he : lexeme.text ++ rest = c :: tail) : kindOf c tail.head? = lexeme.kind := by
  cases lexeme with
  | block inside closed =>
    obtain ⟨rfl, rfl⟩ := List.cons.inj he
    rfl
  | line inside =>
    obtain ⟨rfl, rfl⟩ := List.cons.inj he
    rfl
  | literal quote inside last =>
    obtain ⟨rfl, -⟩ := List.cons.inj he
    cases last with
    | none => exact kindOf_quote hf.1 _
    | some last => exact kindOf_quote hf.1 _
  | single d =>
    obtain ⟨rfl, rfl⟩ := List.cons.inj he
    exact hf

/-! ## Every text begins with a lexeme -/

/-- Behind the opener of a block comment stands the rest of one. -/
theorem exists_fits_block (text : List Char) :
    ∃ inside closed rest, '/' :: '*' :: text = (block inside closed).text ++ rest ∧
      (block inside closed).Fits rest := by
  rcases exists_first_stop EndsBlock text with hr | ⟨before, c, after, rfl, hr, rfl, inside, rfl⟩
  · exact ⟨text, false, [], (text_open_block text).symm, runsOn_block_iff.mp hr, fun _ => rfl⟩
  · rw [runsOn_block_iff, closer_infix_concat_star_iff] at hr
    exact ⟨inside, true, after, (text_closed_block inside after).symm, hr,
      fun h => absurd h.symm Bool.false_ne_true⟩

/-- Behind the opener of a line comment stands the rest of one. -/
theorem exists_fits_line (text : List Char) :
    ∃ inside rest, '/' :: '/' :: text = (line inside).text ++ rest ∧ (line inside).Fits rest := by
  rcases exists_first_stop (fun _ c => c = '\n') text with hr | ⟨before, c, after, rfl, hr, rfl⟩
  · refine ⟨text, [], (List.append_nil _).symm, fun hm => ?_, by simp⟩
    obtain ⟨before, after, he⟩ := List.append_of_mem hm
    exact hr before '\n' after he rfl
  · refine ⟨before, '\n' :: after, rfl, fun hm => ?_, by simp⟩
    obtain ⟨before', after', he⟩ := List.append_of_mem hm
    exact hr before' '\n' after' he rfl

/-- Behind a quote stands the rest of a literal. -/
theorem exists_fits_literal {quote : Char} (hq : isQuote quote = true) (text : List Char) :
    ∃ inside last rest, quote :: text = (literal quote inside last).text ++ rest ∧
      (literal quote inside last).Fits rest := by
  rcases exists_first_stop (EndsLiteral quote) text with hr | ⟨before, c, after, rfl, hr, hc⟩
  · refine ⟨text, none, [], ?_, hq, hr, rfl⟩
    rw [Lexeme.text, Option.toList_none, List.append_nil, List.append_nil]
  · refine ⟨before, some c, after, ?_, hq, hr, hc⟩
    rw [Lexeme.text, Option.toList_some, List.cons_append, List.append_assoc]
    rfl

/-- A text that is not empty begins with a lexeme. -/
theorem exists_fits (c : Char) (text : List Char) :
    ∃ lexeme rest, c :: text = Lexeme.text lexeme ++ rest ∧ lexeme.Fits rest := by
  by_cases hs : kindOf c text.head? = .single
  · exact ⟨single c, text, rfl, hs⟩
  · rw [kindOf_eq_single_iff, not_and_or, not_not, Bool.not_eq_false] at hs
    rcases hs with hq | ⟨rfl, hsecond | hsecond⟩
    · obtain ⟨inside, last, rest, h⟩ := exists_fits_literal hq text
      exact ⟨_, rest, h⟩
    · obtain ⟨tail, rfl⟩ := List.head?_eq_some_iff.mp hsecond
      obtain ⟨inside, closed, rest, h⟩ := exists_fits_block tail
      exact ⟨_, rest, h⟩
    · obtain ⟨tail, rfl⟩ := List.head?_eq_some_iff.mp hsecond
      obtain ⟨inside, rest, h⟩ := exists_fits_line tail
      exact ⟨_, rest, h⟩

/-! ## No text begins with two -/

/-- Block comments with which one text begins are the same. -/
theorem block_unique {inside inside' : List Char} {closed closed' : Bool}
    (hf : (block inside closed).Fits rest) (hf' : (block inside' closed').Fits rest')
    (he : (block inside closed).text ++ rest = (block inside' closed').text ++ rest') :
    block inside closed = block inside' closed' ∧ rest = rest' := by
  obtain ⟨hn, hrest⟩ := hf
  obtain ⟨hn', hrest'⟩ := hf'
  have hruns {inside : List Char} (hn : ¬closer <:+: inside) :
      RunsOn EndsBlock (inside ++ ['*']) := by
    rwa [runsOn_block_iff, closer_infix_concat_star_iff]
  cases closed <;> cases closed'
  · obtain rfl := hrest rfl
    obtain rfl := hrest' rfl
    rw [text_open_block, text_open_block, List.cons.injEq, List.cons.injEq] at he
    exact ⟨by rw [he.2.2], rfl⟩
  · obtain rfl := hrest rfl
    rw [text_open_block, text_closed_block, List.cons.injEq, List.cons.injEq] at he
    exact absurd ⟨rfl, inside', rfl⟩ (runsOn_block_iff.mpr hn _ '/' rest' he.2.2)
  · obtain rfl := hrest' rfl
    rw [text_open_block, text_closed_block, List.cons.injEq, List.cons.injEq] at he
    exact absurd ⟨rfl, inside, rfl⟩ (runsOn_block_iff.mpr hn' _ '/' rest he.2.2.symm)
  · rw [text_closed_block, text_closed_block, List.cons.injEq, List.cons.injEq] at he
    obtain ⟨hstar, -, rfl⟩ := first_stop_inj (hruns hn) (hruns hn') ⟨rfl, inside, rfl⟩
      ⟨rfl, inside', rfl⟩ he.2.2
    rw [List.append_cancel_right hstar]
    exact ⟨rfl, rfl⟩

/-- Line comments with which one text begins are the same. -/
theorem line_unique {inside inside' : List Char} (hf : (line inside).Fits rest)
    (hf' : (line inside').Fits rest')
    (he : (line inside).text ++ rest = (line inside').text ++ rest') :
    line inside = line inside' ∧ rest = rest' := by
  obtain ⟨hn, hrest⟩ := hf
  obtain ⟨hn', hrest'⟩ := hf'
  have htail : inside ++ rest = inside' ++ rest' := (List.cons.inj (List.cons.inj he).2).2
  rcases List.append_eq_append_iff.mp htail with ⟨t, ht, hr⟩ | ⟨t, ht, hr⟩
  · cases t with
    | nil => exact ⟨by rw [ht, List.append_nil], hr⟩
    | cons c t =>
      rw [hrest c (by rw [hr]; rfl)] at ht
      exact absurd (ht ▸ List.mem_append_right inside List.mem_cons_self) hn'
  · cases t with
    | nil => exact ⟨by rw [ht, List.append_nil], hr.symm⟩
    | cons c t =>
      rw [hrest' c (by rw [hr]; rfl)] at ht
      exact absurd (ht ▸ List.mem_append_right inside' List.mem_cons_self) hn

/-- Literals with which one text begins are the same. -/
theorem literal_unique {quote quote' : Char} {inside inside' : List Char} {last last' : Option Char}
    (hf : (literal quote inside last).Fits rest) (hf' : (literal quote' inside' last').Fits rest')
    (he : (literal quote inside last).text ++ rest = (literal quote' inside' last').text ++ rest') :
    literal quote inside last = literal quote' inside' last' ∧ rest = rest' := by
  simp only [Lexeme.text, List.cons_append, List.append_assoc, List.cons.injEq] at he
  obtain ⟨rfl, he⟩ := he
  cases last with
  | none =>
    obtain ⟨-, hr, rfl⟩ := hf
    rw [Option.toList_none, List.nil_append, List.append_nil] at he
    cases last' with
    | none =>
      obtain ⟨-, -, rfl⟩ := hf'
      rw [Option.toList_none, List.nil_append, List.append_nil] at he
      exact ⟨by rw [he], rfl⟩
    | some last' => exact absurd hf'.2.2 (hr inside' last' rest' he)
  | some last =>
    obtain ⟨-, hr, hlast⟩ := hf
    cases last' with
    | none =>
      obtain ⟨-, hr', rfl⟩ := hf'
      rw [Option.toList_none, List.nil_append, List.append_nil] at he
      exact absurd hlast (hr' inside last rest he.symm)
    | some last' =>
      obtain ⟨-, hr', hlast'⟩ := hf'
      obtain ⟨rfl, rfl, rfl⟩ := first_stop_inj hr hr' hlast hlast' he
      exact ⟨rfl, rfl⟩

/-- Lexemes with which one text begins are the same. -/
theorem Fits.unique (hf : lexeme.Fits rest) (hf' : lexeme'.Fits rest')
    (he : lexeme.text ++ rest = lexeme'.text ++ rest') : lexeme = lexeme' ∧ rest = rest' := by
  obtain ⟨c, tail, htext⟩ := List.exists_cons_of_ne_nil
    (List.append_ne_nil_of_left_ne_nil lexeme.text_ne_nil rest)
  have hkind : lexeme.kind = lexeme'.kind :=
    (hf.kindOf_eq htext).symm.trans (hf'.kindOf_eq (he ▸ htext))
  cases lexeme with
  | block =>
    cases lexeme' with
    | block => exact block_unique hf hf' he
    | line | literal | single => cases hkind
  | line =>
    cases lexeme' with
    | line => exact line_unique hf hf' he
    | block | literal | single => cases hkind
  | literal =>
    cases lexeme' with
    | literal => exact literal_unique hf hf' he
    | block | line | single => cases hkind
  | single =>
    cases lexeme' with
    | single =>
      obtain ⟨rfl, rfl⟩ := List.cons.inj he
      exact ⟨rfl, rfl⟩
    | block | line | literal => cases hkind

end Lexeme

/-! ## Every text has one division -/

namespace Lexes

variable {source : List Char} {lexemes lexemes' : List Lexeme}

/-- Every text is divided into lexemes. -/
theorem exists_of_text (source : List Char) : ∃ lexemes, Lexes source lexemes := by
  induction hl : source.length using Nat.strongRecOn generalizing source with
  | ind n ih =>
    cases source with
    | nil => exact ⟨[], .nil⟩
    | cons c text =>
      obtain ⟨lexeme, rest, he, hf⟩ := Lexeme.exists_fits c text
      have hlength := congrArg List.length he
      have hpos := List.length_pos_iff.mpr lexeme.text_ne_nil
      rw [hl, List.length_append] at hlength
      obtain ⟨others, hmore⟩ := ih rest.length (by omega) rest rfl
      exact ⟨lexeme :: others, he ▸ .cons hf hmore⟩

/-- A text is divided into lexemes in one way. -/
theorem unique (hl : Lexes source lexemes) (hl' : Lexes source lexemes') : lexemes = lexemes' := by
  induction hl generalizing lexemes' with
  | nil =>
    generalize hs : ([] : List Char) = source at hl'
    cases hl' with
    | nil => rfl
    | @cons lexeme rest others hf hmore =>
      exact absurd hs.symm (List.append_ne_nil_of_left_ne_nil lexeme.text_ne_nil rest)
  | @cons lexeme rest others hf hmore ih =>
    generalize hs : lexeme.text ++ rest = source at hl'
    cases hl' with
    | nil => exact absurd hs (List.append_ne_nil_of_left_ne_nil lexeme.text_ne_nil rest)
    | cons hf' hmore' =>
      obtain ⟨rfl, rfl⟩ := hf.unique hf' hs
      rw [ih hmore']

/-- The lexemes of a text make it up. -/
theorem flatMap_text (hl : Lexes source lexemes) : lexemes.flatMap Lexeme.text = source := by
  induction hl with
  | nil => rfl
  | cons _ _ ih => rw [List.flatMap_cons, ih]

end Lexes

/-- Whether each lexeme fits in front of those behind it. -/
def FitInOrder : List Lexeme → Prop
  | [] => True
  | lexeme :: others => lexeme.Fits (others.flatMap Lexeme.text) ∧ FitInOrder others

instance FitInOrder.decidable : (lexemes : List Lexeme) → Decidable (FitInOrder lexemes)
  | [] => .isTrue trivial
  | _ :: others =>
    have := FitInOrder.decidable others
    inferInstanceAs (Decidable (_ ∧ _))

/-- Lexemes divide a text if they make it up and each fits in front of the
others. -/
theorem lexes_iff {source : List Char} {lexemes : List Lexeme} :
    Lexes source lexemes ↔ lexemes.flatMap Lexeme.text = source ∧ FitInOrder lexemes := by
  constructor
  · intro hl
    refine ⟨hl.flatMap_text, ?_⟩
    induction hl with
    | nil => trivial
    | cons hf hmore ih => exact ⟨hmore.flatMap_text ▸ hf, ih⟩
  · rintro ⟨rfl, hf⟩
    induction lexemes with
    | nil => exact .nil
    | cons lexeme others ih => exact .cons hf.1 (ih hf.2)

instance (source : List Char) (lexemes : List Lexeme) : Decidable (Lexes source lexemes) :=
  decidable_of_iff _ lexes_iff.symm

end HeaderExports.Text
