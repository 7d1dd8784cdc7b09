import HeaderExports.Text.Word

/-!
# Export markers

An exported function is announced by a word that ends in the export marker
of its library. A marker is a nonempty fragment of an identifier.
-/

namespace HeaderExports

/-- Whether a character may stand in an export marker. -/
def isMarkerChar (c : Char) : Bool := Text.isAlphanumeric c || c == '_'

/-- The end of the words that announce exported functions. -/
structure ExportMarker where
  /-- The marker as it is written. -/
  text : String
  /-- There is something to recognise. -/
  nonempty : text.toList ≠ []
  /-- It is a fragment of an identifier. -/
  fragment : text.toList.all isMarkerChar = true
  deriving DecidableEq

/-- Why a text is no export marker. -/
inductive MarkerError where
  /-- The text is empty. -/
  | empty
  /-- The text holds a character that no identifier has. -/
  | notIdentifier (text : String)
  deriving DecidableEq, Repr

/-- The reason in words. -/
def MarkerError.message : MarkerError → String
  | .empty => "export marker must not be empty"
  | .notIdentifier text =>
    "export marker '" ++ text ++ "' must contain only identifier characters"

namespace ExportMarker

/-- Take a text as export marker. -/
def ofString (text : String) : Except MarkerError ExportMarker :=
  if nonempty : text.toList ≠ [] then
    if fragment : text.toList.all isMarkerChar = true then .ok ⟨text, nonempty, fragment⟩
    else .error (.notIdentifier text)
  else .error .empty

/-- The marker that is in force when none is chosen. -/
def standard : ExportMarker := ⟨"_EXPORT", by decide, by decide⟩

/-- A marker that is accepted is the text that was given. -/
theorem text_of_ofString {text : String} {marker : ExportMarker}
    (accepted : ofString text = .ok marker) : marker.text = text := by
  unfold ofString at accepted
  split at accepted
  · split at accepted
    · cases accepted
      rfl
    · cases accepted
  · cases accepted

/-- A text is refused exactly if it is empty or holds a foreign character. -/
theorem ofString_isOk_iff (text : String) :
    (∃ marker, ofString text = .ok marker) ↔
      text.toList ≠ [] ∧ text.toList.all isMarkerChar = true := by
  constructor
  · rintro ⟨marker, accepted⟩
    rw [← text_of_ofString accepted]
    exact ⟨marker.nonempty, marker.fragment⟩
  · rintro ⟨nonempty, fragment⟩
    exact ⟨⟨text, nonempty, fragment⟩, by simp only [ofString, dif_pos nonempty, dif_pos fragment]⟩

end ExportMarker

end HeaderExports
