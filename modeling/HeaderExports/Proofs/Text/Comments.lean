import HeaderExports.Proofs.Text.Lexemes

/-!
# Comments are lexemes that show as a space

What the scan for comments writes is the text of the lexemes, with a space for
each comment. Where the last lexeme of a text takes in nothing of what follows,
both sides are scanned on their own. What is shown is divided like the source,
so a second scan finds no comment in it.
-/

namespace HeaderExports.Text

/-! ## One step of the scan -/

/-- A character of code that opens no comment is kept. -/
theorem stripFrom_code_cons {c : Char} {rest : List Char}
    (stays : ¬ (c = '/' ∧ (rest.head? = some '*' ∨ rest.head? = some '/'))) :
    stripFrom .code (c :: rest) = c :: stripFrom (.afterCode c) rest := by
  rw [stripFrom]
  · rintro rest' rfl rfl
    exact stays ⟨rfl, .inl rfl⟩
  · rintro rest' rfl rfl
    exact stays ⟨rfl, .inr rfl⟩

/-- The inside of a line comment leaves nothing behind. -/
theorem stripFrom_line_cons {c : Char} (stays : c ≠ '\n') (rest : List Char) :
    stripFrom .line (c :: rest) = stripFrom .line rest := by
  rw [stripFrom]
  exact stays

/-- A character of a literal that hides none behind it is kept. -/
theorem stripFrom_literal_cons {c : Char} {rest : List Char} (quote : Char)
    (stays : c = '\\' → rest = []) :
    stripFrom (.literal quote) (c :: rest) =
      c :: stripFrom (.afterLiteral quote c) rest := by
  rw [stripFrom]
  rintro d rest' rfl rfl
  cases stays rfl

/-- A backslash of a literal and the character it hides are kept. -/
theorem stripFrom_literal_backslash (quote c : Char) (rest : List Char) :
    stripFrom (.literal quote) ('\\' :: c :: rest) =
      '\\' :: c :: stripFrom (.literal quote) rest := rfl

/-- Nothing is left of the empty text, wherever the scan stands. -/
theorem stripFrom_nil (region : Region) : stripFrom region [] = [] := by
  cases region <;> rfl

/-! ## The scan inside a lexeme -/

/-- The inside of a block comment is passed over. -/
theorem stripFrom_block_append {inside rest : List Char} (hn : ¬closer <:+: inside)
    (hr : rest.head? ≠ some '/') : stripFrom .block (inside ++ rest) = stripFrom .block rest := by
  induction inside with
  | nil => rfl
  | cons c inside ih =>
    have hstays : ¬(c = '*' ∧ (inside ++ rest).head? = some '/') := by
      rintro ⟨rfl, hslash⟩
      cases inside with
      | nil => exact hr hslash
      | cons d inside =>
        obtain rfl : d = '/' := Option.some.inj hslash
        exact hn (List.prefix_append closer inside).isInfix
    rw [List.cons_append, stripFrom_block_cons hstays]
    exact ih fun h => hn (h.trans (List.suffix_cons c inside).isInfix)

/-- The inside of a line comment is passed over. -/
theorem stripFrom_line_append {inside : List Char} (hn : '\n' ∉ inside) (rest : List Char) :
    stripFrom .line (inside ++ rest) = stripFrom .line rest := by
  induction inside with
  | nil => rfl
  | cons c inside ih =>
    rw [List.mem_cons, not_or] at hn
    rw [List.cons_append, stripFrom_line_cons fun hc => hn.1 hc.symm]
    exact ih hn.2

/-- At a line end and at the end of the text a line comment is over. -/
theorem stripFrom_line_eq {rest : List Char} (hr : ∀ c ∈ rest.head?, c = '\n') :
    stripFrom .line rest = stripFrom .code rest := by
  cases rest with
  | nil => rfl
  | cons c rest =>
    obtain rfl := hr c rfl
    rfl

/-- Behind a character that is no backslash a literal ends like behind the quote. -/
theorem endsLiteral_cons_of_ne {c : Char} (hc : c ≠ '\\') (quote : Char) :
    (fun before => EndsLiteral quote (c :: before)) = EndsLiteral quote := by
  funext before d
  rw [EndsLiteral, EndsLiteral, escapes_cons_of_ne hc]

/-- Behind an escaped character a literal ends like behind the quote. -/
theorem endsLiteral_backslash_cons (quote c : Char) :
    (fun before => EndsLiteral quote ('\\' :: c :: before)) = EndsLiteral quote := by
  funext before d
  rw [EndsLiteral, EndsLiteral, escapes_backslash_cons]

/-- The inside of a literal is copied, up to a place that nothing escapes. -/
theorem stripFrom_literal_append {quote : Char} {inside : List Char}
    (hr : RunsOn (EndsLiteral quote) inside) (he : escapes inside = false) (rest : List Char) :
    stripFrom (.literal quote) (inside ++ rest) = inside ++ stripFrom (.literal quote) rest := by
  induction hl : inside.length using Nat.strongRecOn generalizing inside with
  | ind n ih =>
    match inside with
    | [] => rfl
    | c :: inside =>
      obtain ⟨hc, htail⟩ := runsOn_cons_iff.mp hr
      by_cases hslash : c = '\\'
      · subst hslash
        match inside with
        | [] => cases he
        | d :: inside =>
          rw [escapes_backslash_cons] at he
          have hbehind : RunsOn (fun before => EndsLiteral quote ('\\' :: d :: before)) inside :=
            (runsOn_cons_iff.mp htail).2
          rw [endsLiteral_backslash_cons] at hbehind
          rw [List.length_cons, List.length_cons] at hl
          rw [List.cons_append, List.cons_append, stripFrom_literal_backslash,
            ih inside.length (by omega) hbehind he rfl]
          rfl
      · rw [escapes_cons_of_ne hslash] at he
        rw [endsLiteral_cons_of_ne hslash] at htail
        have hregion : Region.afterLiteral quote c = .literal quote := by
          have hends : ¬(c = quote ∨ c = '\n') := fun h => hc ⟨rfl, h⟩
          rw [not_or] at hends
          rw [Region.afterLiteral, beq_eq_false_iff_ne.mpr hends.1,
            beq_eq_false_iff_ne.mpr hends.2]
          rfl
        rw [List.length_cons] at hl
        rw [List.cons_append, stripFrom_literal_cons quote fun h => absurd h hslash, hregion,
          ih inside.length (by omega) htail he rfl]
        rfl

/-- The character that ends a literal is copied, and code follows. -/
theorem stripFrom_literal_last {quote last : Char} (hq : isQuote quote = true)
    (hl : last = quote ∨ last = '\n') (rest : List Char) :
    stripFrom (.literal quote) (last :: rest) = last :: stripFrom .code rest := by
  have hslash : last ≠ '\\' := by
    rcases hl with rfl | rfl
    · exact ne_of_isQuote hq (by decide)
    · decide
  have hregion : Region.afterLiteral quote last = .code := by
    rcases hl with rfl | rfl <;> simp [Region.afterLiteral]
  rw [stripFrom_literal_cons quote fun h => absurd h hslash, hregion]

/-- A literal that nothing ends is copied to the end of the text. -/
theorem stripFrom_literal_open {quote : Char} {inside : List Char}
    (hr : RunsOn (EndsLiteral quote) inside) : stripFrom (.literal quote) inside = inside := by
  cases he : escapes inside with
  | false =>
    have hcopied := stripFrom_literal_append hr he []
    rwa [List.append_nil, stripFrom_nil, List.append_nil] at hcopied
  | true =>
    -- the last character is a backslash that has nothing to escape
    rcases List.eq_nil_or_concat inside with rfl | ⟨front, c, rfl⟩
    · cases he
    · rw [List.concat_eq_append] at hr he ⊢
      rw [escapes_concat, Bool.and_eq_true, beq_iff_eq, Bool.not_eq_true'] at he
      obtain ⟨rfl, he⟩ := he
      have hfront : RunsOn (EndsLiteral quote) front := fun before d after h =>
        hr before d (after ++ ['\\']) (by rw [h, List.append_assoc]; rfl)
      rw [stripFrom_literal_append hfront he, stripFrom_literal_cons quote fun _ => rfl,
        stripFrom_nil]

/-! ## What is shown -/

namespace Lexeme

/-- Whether a lexeme is a comment. -/
def isComment : Lexeme → Bool
  | block _ _ | line _ => true
  | literal _ _ _ | single _ => false

/-- What is shown of a lexeme: a space for a comment, all else as it is. -/
def shown (lexeme : Lexeme) : Lexeme := if lexeme.isComment then single ' ' else lexeme

/-- No comment is shown. -/
theorem isComment_shown (lexeme : Lexeme) : lexeme.shown.isComment = false := by
  cases lexeme <;> rfl

/-- In front of any rest, the scan writes what is shown of a lexeme and goes on
behind it. -/
theorem Fits.stripFrom_code {lexeme : Lexeme} {rest : List Char} (hf : lexeme.Fits rest) :
    stripFrom .code (lexeme.text ++ rest) = lexeme.shown.text ++ stripFrom .code rest := by
  cases lexeme with
  | block inside closed =>
    refine congrArg (' ' :: ·) ?_
    change stripFrom .block ((inside ++ if closed then closer else []) ++ rest) =
      stripFrom .code rest
    rw [List.append_assoc]
    cases closed with
    | false =>
      obtain rfl := hf.2 rfl
      exact stripFrom_block_append hf.1 (by simp)
    | true => exact stripFrom_block_append hf.1 (by simp [closer])
  | line inside =>
    refine congrArg (' ' :: ·) ?_
    change stripFrom .line (inside ++ rest) = stripFrom .code rest
    rw [stripFrom_line_append hf.1, stripFrom_line_eq hf.2]
  | literal quote inside last =>
    have hopen (hq : isQuote quote = true) (tail : List Char) :
        stripFrom .code (quote :: tail) = quote :: stripFrom (.literal quote) tail := by
      have hslash : quote ≠ '/' := ne_of_isQuote hq (by decide)
      rw [stripFrom_code_cons fun h => hslash h.1, Region.afterCode, if_pos hq]
    cases last with
    | none =>
      obtain ⟨hq, hr, rfl⟩ := hf
      rw [Lexeme.text, Option.toList_none, List.append_nil, List.append_nil, hopen hq,
        stripFrom_literal_open hr]
      simp [shown, isComment, Lexeme.text, stripFrom]
    | some last =>
      obtain ⟨hq, hr, hescaped, hlast⟩ := hf
      rw [Lexeme.text, List.cons_append, List.append_assoc, hopen hq,
        stripFrom_literal_append hr hescaped, Option.toList_some, List.singleton_append,
        stripFrom_literal_last hq hlast]
      simp [shown, isComment, Lexeme.text]
  | single c =>
    obtain ⟨hq, hn⟩ := kindOf_eq_single_iff.mp hf
    have hregion : Region.afterCode c = .code := by
      rw [Region.afterCode, hq, if_neg Bool.false_ne_true]
    change stripFrom .code (c :: rest) = c :: stripFrom .code rest
    rw [stripFrom_code_cons hn, hregion]

/-- What is shown of a text begins with a space or like the text. -/
theorem head?_shown {rest : List Char} {others : List Lexeme} (hl : Lexes rest others) :
    (others.flatMap fun other => other.shown.text).head? = some ' ' ∨
      (others.flatMap fun other => other.shown.text).head? = rest.head? := by
  cases hl with
  | nil => exact .inr rfl
  | @cons lexeme rest others hf hmore =>
    rw [List.flatMap_cons]
    cases lexeme with
    | block | line => exact .inl rfl
    | literal | single => exact .inr rfl

/-- A lexeme fits in front of what is shown of the rest. -/
theorem Fits.shown {lexeme : Lexeme} {rest : List Char} {others : List Lexeme}
    (hf : lexeme.Fits rest) (hl : Lexes rest others) :
    lexeme.shown.Fits (others.flatMap fun other => other.shown.text) := by
  cases lexeme with
  | block | line => exact kindOf_eq_single_iff.mpr ⟨rfl, fun h => absurd h.1 (by decide)⟩
  | literal quote inside last =>
    cases last with
    | some last => exact hf
    | none =>
      obtain ⟨hq, hr, rfl⟩ := hf
      rw [hl.unique .nil]
      exact ⟨hq, hr, rfl⟩
  | single c =>
    obtain ⟨hq, hn⟩ := kindOf_eq_single_iff.mp hf
    refine kindOf_eq_single_iff.mpr ⟨hq, fun ⟨hc, hnext⟩ => ?_⟩
    rcases head?_shown hl with h | h
    · rw [h] at hnext
      exact absurd hnext (by decide)
    · exact hn ⟨hc, h ▸ hnext⟩

/-- Whether a lexeme that ends a text takes in nothing of what is written behind
it. -/
def isComplete : Lexeme → Bool
  | block _ closed => closed
  | line _ => false
  | literal _ _ last => last.isSome
  | single c => c != '/'

/-- A lexeme still fits when more is written behind the text, unless it ends the
text and is not complete. -/
theorem Fits.append {lexeme : Lexeme} {rest : List Char} (hf : lexeme.Fits rest)
    (hc : rest = [] → lexeme.isComplete = true) (more : List Char) :
    lexeme.Fits (rest ++ more) := by
  cases lexeme with
  | block inside closed =>
    refine ⟨hf.1, fun hopen => ?_⟩
    cases (hc (hf.2 hopen)).symm.trans hopen
  | line inside =>
    have hne : rest ≠ [] := fun h => Bool.false_ne_true (hc h)
    have hhead : (rest ++ more).head? = rest.head? := List.head?_append_of_ne_nil rest hne
    exact ⟨hf.1, hhead ▸ hf.2⟩
  | literal quote inside last =>
    cases last with
    | some last => exact hf
    | none => cases hc hf.2.2
  | single c =>
    cases rest with
    | nil =>
      have hslash : c ≠ '/' := bne_iff_ne.mp (hc rfl)
      exact kindOf_eq_single_iff.mpr ⟨(kindOf_eq_single_iff.mp hf).1, fun h => hslash h.1⟩
    | cons d rest => exact hf

end Lexeme

namespace Lexes

variable {source source' : List Char} {lexemes lexemes' : List Lexeme}

/-- The scan writes what is shown of the lexemes. -/
theorem stripComments_eq (hl : Lexes source lexemes) :
    stripComments source = lexemes.flatMap fun lexeme => lexeme.shown.text := by
  unfold stripComments
  induction hl with
  | nil => rfl
  | cons hf _ ih => rw [hf.stripFrom_code, ih, List.flatMap_cons]

/-- What is shown of a text is divided like the text. -/
theorem shown (hl : Lexes source lexemes) :
    Lexes (stripComments source) (lexemes.map Lexeme.shown) := by
  rw [hl.stripComments_eq]
  induction hl with
  | nil => exact .nil
  | cons hf hmore ih => exact .cons (hf.shown hmore) ih

/-- Texts are divided on their own if the first one ends with a complete
lexeme. -/
theorem append (hl : Lexes source lexemes) (hc : ∀ last ∈ lexemes.getLast?, last.isComplete = true)
    (hl' : Lexes source' lexemes') : Lexes (source ++ source') (lexemes ++ lexemes') := by
  induction hl with
  | nil => exact hl'
  | @cons lexeme rest others hf hmore ih =>
    rw [List.append_assoc, List.cons_append]
    refine .cons (hf.append (fun hrest => ?_) source') (ih fun last hlast => ?_)
    · subst hrest
      obtain rfl := hmore.unique .nil
      exact hc lexeme rfl
    · refine hc last ?_
      cases others with
      | nil => cases hlast
      | cons other others => exact hlast

end Lexes

/-- Whether a text ends between two lexemes: it ends neither in a comment nor in
a literal, nor with a slash that might open a comment. -/
def EndsBetween (text : List Char) : Prop :=
  ∃ lexemes, Lexes text lexemes ∧ ∀ last ∈ lexemes.getLast?, last.isComplete = true

/-- Behind a text that ends between two lexemes the scan begins anew. -/
theorem stripComments_append {front : List Char} (hf : EndsBetween front) (rest : List Char) :
    stripComments (front ++ rest) = stripComments front ++ stripComments rest := by
  obtain ⟨lexemes, hl, hc⟩ := hf
  obtain ⟨others, hrest⟩ := Lexes.exists_of_text rest
  rw [(hl.append hc hrest).stripComments_eq, hl.stripComments_eq, hrest.stripComments_eq,
    List.flatMap_append]

/-- A text that ends between two lexemes and at a line end is shown with its line
end. -/
theorem EndsBetween.getLast?_stripComments {text : List Char} (ht : EndsBetween text)
    (hlast : text.getLast? = some '\n') : (stripComments text).getLast? = some '\n' := by
  obtain ⟨lexemes, hl, hc⟩ := ht
  rw [hl.stripComments_eq]
  rw [← hl.flatMap_text] at hlast
  rcases List.eq_nil_or_concat' lexemes with rfl | ⟨others, last, rfl⟩
  · cases hlast
  · have hcomplete := hc last List.getLast?_concat
    have hends (f : Lexeme → List Char) (hf : f last ≠ []) :
        ((others ++ [last]).flatMap f).getLast? = (f last).getLast? := by
      rw [List.flatMap_append, List.flatMap_singleton, List.getLast?_append_of_ne_nil _ hf]
    rw [hends _ last.text_ne_nil] at hlast
    rw [hends _ last.shown.text_ne_nil]
    cases last with
    | block inside closed =>
      -- a closed comment ends with its slash
      obtain rfl : closed = true := hcomplete
      have htext := Lexeme.text_closed_block inside []
      rw [List.append_nil, ← List.cons_append, ← List.cons_append] at htext
      rw [htext, List.getLast?_concat] at hlast
      cases hlast
    | line inside => cases hcomplete
    | literal | single => exact hlast

/-- A lexeme in front of a text is shown in front of what is shown of the text. -/
theorem stripComments_lexeme {lexeme : Lexeme} {rest : List Char} (hf : lexeme.Fits rest) :
    stripComments (lexeme.text ++ rest) = lexeme.shown.text ++ stripComments rest :=
  hf.stripFrom_code

/-- A character that opens neither a comment nor a literal. -/
def isInert (c : Char) : Bool := !(c == '/' || isQuote c)

/-- A text without slashes and quotes opens neither comments nor literals. -/
theorem forall_isInert {u : List Char} (hslash : '/' ∉ u) (hdouble : '"' ∉ u)
    (hsingle : '\'' ∉ u) : ∀ c ∈ u, isInert c = true := by
  intro c hc
  have hne {d : Char} (hd : d ∉ u) : c ≠ d := ne_of_mem_of_not_mem hc hd
  simp [isInert, isQuote, hne hslash, hne hdouble, hne hsingle]

/-- What opens neither comment nor literal is kept, and the scan goes on behind
it. -/
theorem stripComments_append_of_inert {text : List Char} (ht : ∀ c ∈ text, isInert c = true)
    (rest : List Char) : stripComments (text ++ rest) = text ++ stripComments rest := by
  induction text with
  | nil => rfl
  | cons c text ih =>
    rw [List.forall_mem_cons] at ht
    obtain ⟨hslash, hquote⟩ : c ≠ '/' ∧ isQuote c = false := by simpa [isInert] using ht.1
    have hsingle : (Lexeme.single c).Fits (text ++ rest) :=
      kindOf_eq_single_iff.mpr ⟨hquote, fun h => hslash h.1⟩
    have hscan := stripComments_lexeme hsingle
    rw [ih ht.2] at hscan
    exact hscan

/-- A text that opens neither comments nor literals is kept. -/
theorem stripComments_of_inert {text : List Char} (ht : ∀ c ∈ text, isInert c = true) :
    stripComments text = text := by
  have h := stripComments_append_of_inert ht []
  rwa [List.append_nil, show stripComments [] = [] from rfl, List.append_nil] at h

/-- A comment behind a text that ends between two lexemes is scanned like a
space. -/
theorem stripComments_comment {front : List Char} (hf : EndsBetween front) {lexeme : Lexeme}
    {rest : List Char} (hl : lexeme.Fits rest) (hc : lexeme.isComment = true) :
    stripComments (front ++ (lexeme.text ++ rest)) = stripComments (front ++ ' ' :: rest) := by
  have hspace : (Lexeme.single ' ').Fits rest :=
    kindOf_eq_single_iff.mpr ⟨rfl, fun h => absurd h.1 (by decide)⟩
  rw [stripComments_append hf, stripComments_append hf, stripComments_lexeme hl, Lexeme.shown,
    if_pos hc]
  exact congrArg _ (stripComments_lexeme hspace).symm

/-- Whether a text holds a comment. -/
def HoldsComment (text : List Char) : Prop :=
  ∃ lexemes, Lexes text lexemes ∧ ∃ lexeme ∈ lexemes, lexeme.isComment = true

/-- No comment is left in what the scan writes. -/
theorem not_holdsComment_stripComments (source : List Char) :
    ¬HoldsComment (stripComments source) := by
  obtain ⟨lexemes, hl⟩ := Lexes.exists_of_text source
  rintro ⟨others, hothers, lexeme, hm, hcomment⟩
  rw [hothers.unique hl.shown] at hm
  obtain ⟨lexeme', -, rfl⟩ := List.mem_map.mp hm
  rw [lexeme'.isComment_shown] at hcomment
  cases hcomment

/-- The scan changes exactly the texts that hold a comment. -/
theorem stripComments_eq_self_iff (source : List Char) :
    stripComments source = source ↔ ¬HoldsComment source := by
  obtain ⟨lexemes, hl⟩ := Lexes.exists_of_text source
  constructor
  · intro hs
    rw [← hs]
    exact not_holdsComment_stripComments source
  · intro hn
    have hshown : ∀ lexeme ∈ lexemes, lexeme.shown.text = lexeme.text := by
      intro lexeme hm
      rw [Lexeme.shown, if_neg fun hcomment => hn ⟨lexemes, hl, lexeme, hm, hcomment⟩]
    rw [hl.stripComments_eq, List.flatMap_congr hshown, hl.flatMap_text]

/-- A second scan changes nothing. -/
theorem stripComments_stripComments (source : List Char) :
    stripComments (stripComments source) = stripComments source :=
  (stripComments_eq_self_iff _).mpr (not_holdsComment_stripComments source)

/-- Whether two texts have the same lexemes but for what their comments say. -/
def DifferInComments (source source' : List Char) : Prop :=
  ∃ lexemes lexemes', Lexes source lexemes ∧ Lexes source' lexemes' ∧
    List.Forall₂ (fun lexeme lexeme' => lexeme = lexeme' ∨
      (lexeme.isComment = true ∧ lexeme'.isComment = true)) lexemes lexemes'

/-- What comments say is not shown. -/
theorem stripComments_congr {source source' : List Char} (hd : DifferInComments source source') :
    stripComments source = stripComments source' := by
  obtain ⟨lexemes, lexemes', hl, hl', hpairs⟩ := hd
  rw [hl.stripComments_eq, hl'.stripComments_eq]
  clear hl hl'
  induction hpairs with
  | nil => rfl
  | @cons lexeme lexeme' others others' hpair _ ih =>
    have hshown : lexeme.shown = lexeme'.shown := by
      rcases hpair with rfl | ⟨hcomment, hcomment'⟩
      · rfl
      · rw [Lexeme.shown, Lexeme.shown, if_pos hcomment, if_pos hcomment']
    rw [List.flatMap_cons, List.flatMap_cons, hshown, ih]

/-- Every text is divided into lexemes in exactly one way, each of them of the
kind that the first two characters tell. The scan for comments writes one space
for each comment and every other lexeme as it is. -/
theorem stripComments_eq_lexemes (source : List Char) :
    (∃! lexemes, Lexes source lexemes) ∧
      ∀ lexemes, Lexes source lexemes →
        lexemes.flatMap Lexeme.text = source ∧
        (∀ first ∈ lexemes.head?, ∀ c ∈ source.head?,
          first.kind = kindOf c source.tail.head?) ∧
        stripComments source =
          lexemes.flatMap fun lexeme => if lexeme.isComment then [' '] else lexeme.text := by
  obtain ⟨lexemes, hl⟩ := Lexes.exists_of_text source
  refine ⟨⟨lexemes, hl, fun _ h => h.unique hl⟩, fun lexemes hl => ⟨hl.flatMap_text, ?_, ?_⟩⟩
  · intro first hfirst c hc
    cases hl with
    | nil => cases hc
    | @cons lexeme rest others hf hmore =>
      obtain rfl := Option.some.inj hfirst
      obtain ⟨tail, htail⟩ := List.head?_eq_some_iff.mp hc
      rw [htail]
      exact (hf.kindOf_eq htail).symm
  · rw [hl.stripComments_eq]
    refine List.flatMap_congr fun lexeme _ => ?_
    cases lexeme <;> rfl

/-- A comment whose opener and closer share a slash with what stands inside, an
escaped quote and openers in a literal, a literal that the line end closes, and
a comment that nothing closes. -/
theorem stripComments_eq_lexemes_of_shared_characters :
    let source := "/*/**/'//\\'/*'\"/*\n//*/\n/*/".toList
    let lexemes := [.block "/*".toList true, .literal '\'' "//\\'/*".toList (some '\''),
      .literal '"' "/*".toList (some '\n'), .line "*/".toList, .single '\n',
      .block "/".toList false]
    Lexes source lexemes ∧ lexemes.flatMap Lexeme.text = source ∧
      stripComments source = " '//\\'/*'\"/*\n \n ".toList := by
  intro source lexemes
  have hl : Lexes source lexemes := by decide +kernel
  obtain ⟨htext, -, hs⟩ := (stripComments_eq_lexemes source).2 lexemes hl
  exact ⟨hl, htext, hs.trans (by decide +kernel)⟩

end HeaderExports.Text
