import HeaderExports.Proofs.Layout.Pieces
import HeaderExports.Proofs.Pattern.Pinned

/-!
# Comma lists with layout

Items may be joined by commas with any layout around them, and a last comma may
stand behind them. A pattern that reads each item in front of a comma and at
the end, and that passes over blanks and commas, reads the items of the list in
order, whatever the layout comes to on one line.
-/

namespace HeaderExports

open Grammar Pattern
open Text

/-- Items joined by commas, with the layout behind each comma. -/
inductive CommaList (α : Type) (comments : Bool) where
  /-- No item. -/
  | nil
  /-- One item without a comma behind it. -/
  | last (item : α)
  /-- An item, a comma and what stands behind. -/
  | cons (item : α) (gap : Layout comments) (rest : CommaList α comments)

namespace CommaList

variable {α : Type} {comments : Bool}

/-- The items of a list in order. -/
def items : CommaList α comments → List α
  | nil => []
  | last item => [item]
  | cons item _ rest => item :: rest.items

/-- A comma as a token. -/
def comma : Token isSolid := .ofAll [','] (by decide)

/-- The pieces of a list, given those of its items. -/
def pieces (of : α → List (Piece comments)) : CommaList α comments → List (Piece comments)
  | nil => []
  | last item => of item
  | cons item gap rest => of item ++ ⟨comma, gap⟩ :: rest.pieces of

/-- What holds of commas and of the pieces of every item holds of all pieces. -/
theorem forall_mem_pieces {P : Piece comments → Prop} {of : α → List (Piece comments)}
    (hcomma : ∀ gap, P ⟨comma, gap⟩) (hitem : ∀ item, ∀ piece ∈ of item, P piece)
    (list : CommaList α comments) : ∀ piece ∈ list.pieces of, P piece := by
  induction list with
  | nil => exact fun piece hp => absurd hp List.not_mem_nil
  | last item => exact hitem item
  | cons item gap rest ih =>
    exact List.forall_mem_append.mpr
      ⟨hitem item, List.forall_mem_cons.mpr ⟨hcomma gap, ih⟩⟩

end CommaList

/-- A comma list between two delimiters. -/
structure LaidList (α : Type) (comments : Bool) where
  /-- What stands in front of the first item. -/
  lead : Layout comments
  /-- The items. -/
  list : CommaList α comments

namespace LaidList

variable {α : Type} {comments : Bool} {of : α → List (Piece comments)}

/-- The text between the delimiters, given the pieces of the items. -/
def laidText (of : α → List (Piece comments)) (laid : LaidList α comments) : LaidText comments where
  lead := laid.lead
  pieces := laid.list.pieces of

/-- What is seen between the delimiters is of a class that has blanks, commas and
what the items are made of. -/
theorem forall_mem_shown {inside : Char → Bool} (hblank : ∀ c, isBlank c = true → inside c = true)
    (hcomma : inside ',' = true)
    (hitem : ∀ item, ∀ piece ∈ of item, ∀ c ∈ piece.token.chars, inside c = true)
    (laid : LaidList α comments) : ∀ c ∈ (laid.laidText of).chars Layout.shown, inside c = true :=
  LaidText.forall_mem_shown hblank (CommaList.forall_mem_pieces
    (P := fun piece : Piece comments => ∀ c ∈ piece.token.chars, inside c = true)
    (fun _ => List.forall_mem_singleton.mpr hcomma) hitem laid.list)

end LaidList

namespace Pattern

variable {p : Pattern Part} (hn : ∀ marks : Marks Part, ¬Spells p [] marks)

include hn

/-- Blanks are passed over by a pattern none of whose words begins with one. -/
theorem readings_blanks_append
    (hskip : ∀ c, isBlank c = true → ∀ word marks, ¬Spells p (c :: word) marks)
    {gap : List Char} (hg : ∀ c ∈ gap, isBlank c = true) (rest : List Char) :
    p.readings (gap ++ rest) = p.readings rest :=
  readings_append_of_forall hn (fun c hc => hskip c (hg c hc)) rest

section Lists

variable {α : Type} {comments : Bool} {of : α → List (Piece comments)} {marks : α → Marks Part}
  (hskip : ∀ c, isBlank c = true ∨ c = ',' → ∀ word marks, ¬Spells p (c :: word) marks)
  (hitem : ∀ item rest, (∀ c ∈ rest.head?, c = ',') →
    p.readings (written Layout.short (of item) ++ rest) = marks item :: p.readings rest)

include hskip hitem

/-- The items of a list are read in order. -/
theorem readings_commaList (list : CommaList α comments) :
    p.readings (written Layout.short (list.pieces of)) = list.items.map marks := by
  induction list with
  | nil => exact readings_nil hn
  | last item =>
    have h := hitem item [] fun c hc => absurd hc (Option.not_mem_none c)
    rw [List.append_nil, readings_nil hn] at h
    exact h
  | cons item gap rest ih =>
    have hcomma : ∀ c ∈ (written Layout.short (⟨CommaList.comma, gap⟩ :: rest.pieces of)).head?,
        c = ',' := fun c hc => (Option.some.inj hc).symm
    have hgap : p.readings (gap.short ++ written Layout.short (rest.pieces of)) =
        p.readings (written Layout.short (rest.pieces of)) :=
      readings_blanks_append hn (fun c hc => hskip c (.inl hc)) gap.isBlank_of_mem_short _
    have htail : p.readings (written Layout.short (⟨CommaList.comma, gap⟩ :: rest.pieces of)) =
        rest.items.map marks := by
      rw [written_cons, ← ih, ← hgap]
      exact readings_cons_of_forall hn (hskip ',' (.inr rfl)) _
    rw [CommaList.pieces, written_append, hitem item _ hcomma, htail]
    rfl

/-- The items of a list are read in order when it is put on one line. -/
theorem readings_laidList (laid : LaidList α comments) :
    p.readings (oneLine ((laid.laidText of).chars Layout.shown)) = laid.list.items.map marks := by
  have hlead := readings_blanks_append hn (fun c hc => hskip c (.inl hc))
    laid.lead.isBlank_of_mem_short (written Layout.short (laid.list.pieces of))
  rw [LaidText.oneLine_shown, ← readings_commaList hn hskip hitem laid.list, ← hlead]
  rfl

end Lists

end Pattern

end HeaderExports
