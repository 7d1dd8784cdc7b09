import HeaderExports.Extraction
import HeaderExports.Proofs.Grammar.Members
import HeaderExports.Proofs.Text.Comments
import HeaderExports.Proofs.Text.OneLine

/-!
# Tokens with layout behind them

Between two tokens stands layout: blanks and, where comments are taken out of
the text, comments. A text is written piece by piece, each piece a token with
its layout. Taking comments out and putting the text on one line change the
layout of every piece for itself and leave the tokens as they are.
-/

namespace HeaderExports

open Grammar Pattern
open Text

/-- An item of layout. Comments are layout only where they are taken out. -/
inductive LayoutItem (comments : Bool) where
  /-- A blank. -/
  | blank (c : Char) (isBlank : isBlank c = true)
  /-- A block comment with the closer behind it. -/
  | block (apart : comments = true) (inside : List Char) (within : ¬closer <:+: inside)
  /-- A line comment with the line end behind it. -/
  | line (apart : comments = true) (inside : List Char) (within : '\n' ∉ inside)

namespace LayoutItem

variable {comments : Bool}

/-- The item as it is written. -/
def text : LayoutItem comments → List Char
  | blank c _ => [c]
  | block _ inside _ => (Lexeme.block inside true).text
  | line _ inside _ => (Lexeme.line inside).text ++ ['\n']

/-- What is seen of the item: a space stands for a comment. -/
def shown : LayoutItem comments → List Char
  | blank c _ => [c]
  | block _ _ _ => [' ']
  | line _ _ _ => [' ', '\n']

/-- Every item is written with a character. -/
theorem text_ne_nil (item : LayoutItem comments) : item.text ≠ [] := by
  cases item <;> exact List.cons_ne_nil _ _

/-- Something is seen of every item. -/
theorem shown_ne_nil (item : LayoutItem comments) : item.shown ≠ [] := by
  cases item <;> exact List.cons_ne_nil _ _

/-- What is seen of an item is blank. -/
theorem isBlank_of_mem_shown (item : LayoutItem comments) :
    ∀ c ∈ item.shown, isBlank c = true := by
  cases item with
  | blank c hc => simpa [shown] using hc
  | block _ _ _ => simp only [shown, List.mem_singleton, forall_eq]; decide
  | line _ _ _ =>
    simp only [shown, List.forall_mem_cons]
    exact ⟨by decide, by decide, fun _ h => absurd h List.not_mem_nil⟩

end LayoutItem

/-- Layout between two tokens. -/
abbrev Layout (comments : Bool) := List (LayoutItem comments)

namespace Layout

variable {comments : Bool}

/-- Layout as it is written. -/
def text (layout : Layout comments) : List Char := layout.flatMap LayoutItem.text

/-- What is seen of layout. -/
def shown (layout : Layout comments) : List Char := layout.flatMap LayoutItem.shown

/-- What is left of layout on one line. -/
def short (layout : Layout comments) : List Char := oneLine layout.shown

/-- What is seen of layout is blank. -/
theorem isBlank_of_mem_shown (layout : Layout comments) :
    ∀ c ∈ layout.shown, isBlank c = true := by
  intro c hc
  obtain ⟨item, -, hc⟩ := List.mem_flatMap.mp hc
  exact item.isBlank_of_mem_shown c hc

/-- What is left of layout on one line is blank. -/
theorem isBlank_of_mem_short (layout : Layout comments) :
    ∀ c ∈ layout.short, isBlank c = true :=
  fun c hc => layout.isBlank_of_mem_shown c (mem_oneLine.mp hc).1

/-- Nothing is seen of layout only if none is written. -/
theorem text_eq_nil_of_shown {layout : Layout comments} (hs : layout.shown = []) :
    layout.text = [] := by
  cases layout with
  | nil => rfl
  | cons item layout => exact absurd (List.append_eq_nil_iff.mp hs).1 item.shown_ne_nil

/-- What is left of layout on one line, as a run of blanks. -/
def blanks (layout : Layout comments) : Stretch isBlank :=
  ⟨layout.short, layout.isBlank_of_mem_short⟩

/-- One or two spaces as layout. -/
def spaces (two : Bool) : Layout comments :=
  List.replicate (if two then 2 else 1) (.blank ' ' (by decide))

/-- On one line two spaces are one. -/
theorem short_spaces (two : Bool) : (spaces two : Layout comments).short = [' '] := by
  cases two <;> rfl

end Layout

/-! ## What is seen of a text -/

namespace Grammar

variable {marker : ExportMarker} {keepsComments : Bool}

/-- What opens neither comment nor literal is seen as it is. -/
theorem visibleText_append_of_inert {text : List Char} (ht : ∀ c ∈ text, isInert c = true)
    (rest : List Char) :
    (withMarker marker keepsComments).visibleText (text ++ rest) =
      text ++ (withMarker marker keepsComments).visibleText rest := by
  cases keepsComments with
  | true => rfl
  | false => exact stripComments_append_of_inert ht rest

/-- A text spelled out without slashes and quotes is seen as it is. -/
theorem visibleText_append_of_all {text : List Char} (ht : text.all isInert = true)
    (rest : List Char) :
    (withMarker marker keepsComments).visibleText (text ++ rest) =
      text ++ (withMarker marker keepsComments).visibleText rest :=
  visibleText_append_of_inert (List.all_eq_true.mp ht) rest

/-- What opens neither comment nor literal is seen as it is at the end. -/
theorem visibleText_of_inert {text : List Char} (ht : ∀ c ∈ text, isInert c = true) :
    (withMarker marker keepsComments).visibleText text = text := by
  cases keepsComments with
  | true => rfl
  | false => exact stripComments_of_inert ht

/-- An item of layout is seen as what is seen of it, whatever stands behind it. -/
theorem visibleText_item_append (item : LayoutItem (!keepsComments)) (rest : List Char) :
    (withMarker marker keepsComments).visibleText (item.text ++ rest) =
      item.shown ++ (withMarker marker keepsComments).visibleText rest := by
  cases item with
  | blank c hc =>
    have hinert : isInert c = true := by
      rw [isInert, Bool.not_eq_true', ← Bool.not_eq_true]
      intro h
      simp only [isQuote, Bool.or_eq_true, beq_iff_eq] at h
      rcases h with rfl | rfl | rfl <;> exact absurd hc (by decide)
    exact visibleText_append_of_inert (List.forall_mem_singleton.mpr hinert) rest
  | block apart inside within =>
    obtain rfl : keepsComments = false := Bool.not_eq_true' .. ▸ apart
    have hclosed : (Lexeme.block inside true).Fits rest := ⟨within, fun h => Bool.noConfusion h⟩
    exact stripComments_lexeme hclosed
  | line apart inside within =>
    obtain rfl : keepsComments = false := Bool.not_eq_true' .. ▸ apart
    have hend : (Lexeme.line inside).Fits ('\n' :: rest) :=
      ⟨within, fun c hc => (Option.some.inj hc).symm⟩
    have hbreak : ∀ c ∈ ['\n'], isInert c = true := List.all_eq_true.mp (by decide)
    have hscan := stripComments_lexeme hend
    rw [← List.singleton_append, stripComments_append_of_inert hbreak] at hscan
    rw [LayoutItem.text, List.append_assoc]
    exact hscan

/-- Layout is seen as what is seen of it, whatever stands behind it. -/
theorem visibleText_layout_append (layout : Layout (!keepsComments)) (rest : List Char) :
    (withMarker marker keepsComments).visibleText (layout.text ++ rest) =
      layout.shown ++ (withMarker marker keepsComments).visibleText rest := by
  induction layout with
  | nil => rfl
  | cons item layout ih =>
    rw [Layout.text, List.flatMap_cons, List.append_assoc, visibleText_item_append]
    rw [Layout.text] at ih
    rw [ih, Layout.shown, Layout.shown, List.flatMap_cons, List.append_assoc]

end Grammar

/-! ## Pieces -/

namespace Text

/-- A character of a token. -/
def isSolid (c : Char) : Bool := !isBlank c && isInert c

/-- The characters of a parameter's name are solid. -/
theorem isSolid_of_inParameterName {c : Char} (hc : inParameterName c = true) :
    isSolid c = true := by
  have hne (d : Char) (hd : inParameterName d = false) : c ≠ d := by
    rintro rfl
    rw [hd] at hc
    exact Bool.noConfusion hc
  have hslash : c ≠ '/' := hne '/' (by decide)
  have hdouble : c ≠ '"' := hne '"' (by decide)
  have hsingle : c ≠ '\'' := hne '\'' (by decide)
  simp [isSolid, isInert, isQuote, not_blank_of_inParameterName hc, hslash, hdouble, hsingle]

/-- Word characters are solid. -/
theorem isSolid_of_isWord {c : Char} (hc : isWord c = true) : isSolid c = true :=
  isSolid_of_inParameterName (by simp [inParameterName, hc])

end Text

/-- A token of a class of solid characters. -/
def Pattern.Token.solid {inside : Char → Bool} (token : Token inside)
    (hs : ∀ c, inside c = true → isSolid c = true) : Token isSolid :=
  ⟨⟨token.chars, fun c hc => hs c (token.inside_of_mem c hc)⟩, token.nonempty⟩

/-- A token is spelled the same as a solid one. -/
@[simp]
theorem Pattern.Token.chars_solid {inside : Char → Bool} (token : Token inside)
    (hs : ∀ c, inside c = true → isSolid c = true) : (token.solid hs).chars = token.chars :=
  rfl

/-- A name as a token. -/
def Grammar.Name.solid (name : Name) : Token isSolid := Token.solid name fun _ => isSolid_of_isWord

/-- A name is spelled the same as a token. -/
@[simp]
theorem Grammar.Name.chars_solid (name : Name) : name.solid.chars = name.chars :=
  rfl

/-- A name opens neither a comment nor a literal. -/
theorem Grammar.Name.isInert_of_mem (name : Name) : ∀ c ∈ name.chars, isInert c = true :=
  fun c hc => (Bool.and_eq_true_iff.mp (isSolid_of_isWord (name.inside_of_mem c hc))).2

/-- A return type opens neither a comment nor a literal. -/
theorem Grammar.ReturnType.isInert_of_mem (type : ReturnType) :
    ∀ c ∈ type.chars, isInert c = true :=
  forall_isInert (type.not_mem (by decide) (by decide) (by decide))
    (type.not_mem (by decide) (by decide) (by decide))
    (type.not_mem (by decide) (by decide) (by decide))

/-- A token with the layout behind it. -/
structure Piece (comments : Bool) where
  /-- The token. -/
  token : Token isSolid
  /-- The layout behind it. -/
  gap : Layout comments

variable {comments : Bool}

/-- Pieces one behind the other, their layout written in a given way. -/
def written (write : Layout comments → List Char) (pieces : List (Piece comments)) : List Char :=
  pieces.flatMap fun piece => piece.token.chars ++ write piece.gap

/-- A piece is written in front of the others. -/
theorem written_cons (write : Layout comments → List Char) (piece : Piece comments)
    (pieces : List (Piece comments)) :
    written write (piece :: pieces) =
      piece.token.chars ++ (write piece.gap ++ written write pieces) := by
  rw [written, List.flatMap_cons, List.append_assoc, written]

/-- Pieces are written one behind the other. -/
theorem written_append (write : Layout comments → List Char)
    (pieces others : List (Piece comments)) :
    written write (pieces ++ others) = written write pieces ++ written write others :=
  List.flatMap_append

/-- One space between two words. -/
def oneSpace : Token isBlank := .ofAll [' '] (by decide)

/-- The qualifier as a token. -/
def qualifierToken : Token isSolid := .ofAll ['c', 'o', 'n', 's', 't'] (by decide)

/-- Pieces are seen with what is seen of their layout. -/
theorem Grammar.visibleText_written_append {marker : ExportMarker} {keepsComments : Bool}
    (pieces : List (Piece (!keepsComments))) (rest : List Char) :
    (withMarker marker keepsComments).visibleText (written Layout.text pieces ++ rest) =
      written Layout.shown pieces ++ (withMarker marker keepsComments).visibleText rest := by
  induction pieces with
  | nil => rfl
  | cons piece pieces ih =>
    have hinert : ∀ c ∈ piece.token.chars, isInert c = true := fun c hc =>
      (Bool.and_eq_true_iff.mp (piece.token.inside_of_mem c hc)).2
    rw [written_cons, written_cons, List.append_assoc, List.append_assoc,
      visibleText_append_of_inert hinert, visibleText_layout_append, ih, List.append_assoc,
      List.append_assoc]

/-- Pieces behind any text are put on one line by shortening the layout of each. -/
theorem oneLine_append_written (front : List Char) (pieces : List (Piece comments)) :
    oneLine (front ++ written Layout.shown pieces) =
      oneLine front ++ written Layout.short pieces := by
  induction pieces generalizing front with
  | nil =>
    rw [written, List.flatMap_nil, List.append_nil, written, List.flatMap_nil, List.append_nil]
  | cons piece pieces ih =>
    have hsolid : ∀ c ∈ piece.token.chars, ¬isBlank c = true := fun c hc => by
      have h := (Bool.and_eq_true_iff.mp (piece.token.inside_of_mem c hc)).1
      rwa [Bool.not_eq_true', ← Bool.not_eq_true] at h
    -- no run of spaces goes on into a token
    have hhead : (piece.token.chars ++ (piece.gap.shown ++ written Layout.shown pieces)).head? ≠
        some ' ' := by
      obtain ⟨c, more, hc⟩ := List.exists_cons_of_ne_nil piece.token.nonempty
      rw [hc, List.cons_append, List.head?_cons]
      intro h
      refine hsolid ' ' ?_ (by decide)
      rw [hc, Option.some.inj h]
      exact List.mem_cons_self
    rw [written_cons, written_cons, oneLine_append (.inr hhead), kept_of_not_blank hsolid, ih]
    rfl

/-- Pieces behind layout, as they stand between two delimiters. -/
structure LaidText (comments : Bool) where
  /-- What stands in front of the first piece. -/
  lead : Layout comments
  /-- The pieces. -/
  pieces : List (Piece comments)

namespace LaidText

/-- The text, its layout written in a given way. -/
def chars (write : Layout comments → List Char) (laid : LaidText comments) : List Char :=
  write laid.lead ++ written write laid.pieces

/-- What is seen of a text is of a class that has the blanks and what its tokens
are made of. -/
theorem forall_mem_shown {inside : Char → Bool} {laid : LaidText comments}
    (hblank : ∀ c, isBlank c = true → inside c = true)
    (hpieces : ∀ piece ∈ laid.pieces, ∀ c ∈ piece.token.chars, inside c = true) :
    ∀ c ∈ laid.chars Layout.shown, inside c = true := by
  intro c hc
  rcases List.mem_append.mp hc with h | h
  · exact hblank c (laid.lead.isBlank_of_mem_shown c h)
  · obtain ⟨piece, hpiece, h⟩ := List.mem_flatMap.mp h
    rcases List.mem_append.mp h with h | h
    · exact hpieces piece hpiece c h
    · exact hblank c (piece.gap.isBlank_of_mem_shown c h)

/-- Something is seen of a text if something is written. -/
theorem shown_ne_nil {laid : LaidText comments} (ht : laid.chars Layout.text ≠ []) :
    laid.chars Layout.shown ≠ [] := by
  intro hs
  obtain ⟨hlead, hpieces⟩ := List.append_eq_nil_iff.mp hs
  obtain ⟨lead, _ | ⟨piece, pieces⟩⟩ := laid
  · refine ht ?_
    rw [chars, Layout.text_eq_nil_of_shown hlead]
    rfl
  · rw [written_cons] at hpieces
    exact piece.token.nonempty (List.append_eq_nil_iff.mp hpieces).1

/-- A text is seen with what is seen of its layout. -/
theorem visibleText_append {marker : ExportMarker} {keepsComments : Bool}
    (laid : LaidText (!keepsComments)) (rest : List Char) :
    (withMarker marker keepsComments).visibleText (laid.chars Layout.text ++ rest) =
      laid.chars Layout.shown ++ (withMarker marker keepsComments).visibleText rest := by
  rw [chars, List.append_assoc, visibleText_layout_append, visibleText_written_append, chars,
    List.append_assoc]

/-- A text is put on one line by shortening its layout. -/
theorem oneLine_shown (laid : LaidText comments) :
    oneLine (laid.chars Layout.shown) = laid.chars Layout.short := by
  rw [chars, oneLine_append_written]
  rfl

end LaidText

end HeaderExports
