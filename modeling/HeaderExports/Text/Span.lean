/-!
# Places in a text

Places are counted in bytes of the UTF-8 form. A span runs from its start up
to, but not including, its stop.
-/

namespace HeaderExports.Text

/-- The number of bytes of a text. -/
def byteLength : List Char → Nat
  | [] => 0
  | c :: rest => c.utf8Size + byteLength rest

/-- The bytes of two texts in a row add up. -/
theorem byteLength_append (left right : List Char) :
    byteLength (left ++ right) = byteLength left + byteLength right := by
  induction left with
  | nil => simp [byteLength]
  | cons c rest ih => simp [byteLength, ih, Nat.add_assoc]

/-- The bytes of a text are counted as they are encoded. -/
theorem byteLength_toList (text : String) : byteLength text.toList = text.utf8ByteSize := by
  rw [← String.ofList_toList (s := text), String.toList_ofList]
  induction text.toList with
  | nil => rfl
  | cons c rest ih =>
    rw [byteLength, ih, String.ofList_cons, String.utf8ByteSize_append,
      String.utf8ByteSize_singleton]

/-- A range of bytes. -/
structure Span where
  /-- The first byte. -/
  start : Nat
  /-- The byte behind the last one. -/
  stop : Nat
  deriving DecidableEq, Repr

namespace Span

/-- Whether a byte lies in a span. -/
def Covers (span : Span) (byte : Nat) : Prop := span.start ≤ byte ∧ byte < span.stop

/-- Whether a span has no byte, an inverted one included. -/
def isEmpty (span : Span) : Bool := span.stop ≤ span.start

/-- Whether two spans share a byte. -/
def meets (left right : Span) : Bool :=
  !left.isEmpty && !right.isEmpty && left.start < right.stop && right.start < left.stop

/-- A span is empty exactly if it covers no byte. -/
theorem isEmpty_iff (span : Span) : span.isEmpty = true ↔ ∀ byte, ¬ span.Covers byte := by
  simp only [isEmpty, decide_eq_true_eq, Covers]
  constructor
  · intro inverted byte covered
    omega
  · intro none
    have := none span.start
    omega

/-- Two spans meet exactly if a byte lies in both. -/
theorem meets_iff (left right : Span) :
    left.meets right = true ↔ ∃ byte, left.Covers byte ∧ right.Covers byte := by
  simp only [meets, isEmpty, Bool.and_eq_true, Bool.not_eq_true', decide_eq_false_iff_not,
    decide_eq_true_eq, Covers]
  constructor
  · rintro ⟨⟨⟨_, _⟩, _⟩, _⟩
    exact ⟨max left.start right.start, by omega, by omega⟩
  · rintro ⟨byte, _, _⟩
    omega

end Span

end HeaderExports.Text
