import HeaderExports.Text.Span

/-!
# Pieces of a text

A piece is cut out of a text at a span of bytes. There is none at a span that
leaves the text, at an inverted one, and at one with an end inside of a
character. At every other span a piece stands between the rest of the text.
-/

namespace HeaderExports.Text

/-- Why there is no piece at a span. -/
inductive CutFault where
  /-- An end lies behind the last byte of the text. -/
  | outside
  /-- The stop lies in front of the start. -/
  | inverted
  /-- An end lies between the bytes of one character. -/
  | insideCharacter
  deriving DecidableEq, Repr

/-- The piece of a text at a span. -/
def cut (text : String) (span : Span) : Except CutFault String :=
  if text.utf8ByteSize < span.start ∨ text.utf8ByteSize < span.stop then .error .outside
  else if span.stop < span.start then .error .inverted
  -- A place is valid if a character begins there or the text ends there.
  else if between : String.Pos.Raw.IsValid text ⟨span.start⟩ ∧
      String.Pos.Raw.IsValid text ⟨span.stop⟩ then
    .ok (String.extract ⟨⟨span.start⟩, between.1⟩ ⟨⟨span.stop⟩, between.2⟩)
  else .error .insideCharacter

/-- The byte at which a character stands for the first time. -/
def firstByte? (sought : Char) : List Char → Option Nat
  | [] => none
  | c :: rest => if c = sought then some 0 else (firstByte? sought rest).map (c.utf8Size + ·)

/-- What stands between two places of a text is what has to be put between their
sides to make up the text. -/
theorem extract_eq_iff {text piece : String} {start stop : text.Pos} (ordered : start ≤ stop) :
    String.extract start stop = piece ↔
      ∃ front behind,
        start.Splits front (piece ++ behind) ∧ stop.Splits (front ++ piece) behind := by
  rw [String.extract_eq_copy_slice start stop ordered, ← String.copy_slice_eq_iff_splits]
  exact ⟨fun same => ⟨ordered, same⟩, fun ⟨_, same⟩ => same⟩

/-- A piece is cut out of a text exactly at the bytes on which it stands there. -/
theorem cut_eq_ok_iff {text piece : String} {span : Span} :
    cut text span = .ok piece ↔
      ∃ front behind, text = front ++ piece ++ behind ∧
        span = ⟨front.utf8ByteSize, (front ++ piece).utf8ByteSize⟩ := by
  constructor
  · intro success
    unfold cut at success
    split at success
    · cases success
    split at success
    · cases success
    split at success
    · next _ notInverted between =>
      obtain ⟨front, behind, atStart, atStop⟩ :=
        (extract_eq_iff (Nat.le_of_not_lt notInverted)).mp (Except.ok.inj success)
      have start : span.start = front.utf8ByteSize :=
        congrArg String.Pos.Raw.byteIdx atStart.offset_eq_rawEndPos
      have stop : span.stop = (front ++ piece).utf8ByteSize :=
        congrArg String.Pos.Raw.byteIdx atStop.offset_eq_rawEndPos
      exact ⟨front, behind, atStop.eq_append, by rw [← start, ← stop]⟩
    · cases success
  · rintro ⟨front, behind, rfl, rfl⟩
    have inside : ¬ ((front ++ piece ++ behind).utf8ByteSize < front.utf8ByteSize ∨
        (front ++ piece ++ behind).utf8ByteSize < (front ++ piece).utf8ByteSize) := by
      simp only [String.utf8ByteSize_append]
      omega
    have ordered : ¬ (front ++ piece).utf8ByteSize < front.utf8ByteSize := by
      simp only [String.utf8ByteSize_append]
      omega
    have between : String.Pos.Raw.IsValid (front ++ piece ++ behind) ⟨front.utf8ByteSize⟩ ∧
        String.Pos.Raw.IsValid (front ++ piece ++ behind) ⟨(front ++ piece).utf8ByteSize⟩ :=
      ⟨String.Pos.Raw.isValid_iff_exists_append.mpr
          ⟨front, piece ++ behind, String.append_assoc, rfl⟩,
        String.Pos.Raw.isValid_iff_exists_append.mpr ⟨front ++ piece, behind, rfl, rfl⟩⟩
    rw [cut, if_neg inside, if_neg ordered, dif_pos between]
    exact congrArg Except.ok ((extract_eq_iff (Nat.le_of_not_lt ordered)).mpr
      ⟨front, behind, ⟨String.append_assoc, rfl⟩, ⟨rfl, rfl⟩⟩)

/-- No piece begins or ends inside of a character. -/
example : cut "é" ⟨0, 1⟩ = .error .insideCharacter := rfl

/-- A character is found behind the bytes of what stands in front of it. -/
theorem firstByte?_append {sought : Char} {front : List Char} (first : sought ∉ front)
    (behind : List Char) :
    firstByte? sought (front ++ sought :: behind) = some (byteLength front) := by
  induction front with
  | nil => rw [List.nil_append, firstByte?, if_pos rfl, byteLength]
  | cons c front ih =>
    rw [List.mem_cons, not_or] at first
    rw [List.cons_append, firstByte?, if_neg (Ne.symm first.1), ih first.2, Option.map_some,
      byteLength]

/-- A character is not found where it does not stand. -/
theorem firstByte?_of_not_mem {sought : Char} {text : List Char} (absent : sought ∉ text) :
    firstByte? sought text = none := by
  induction text with
  | nil => rfl
  | cons c rest ih =>
    rw [List.mem_cons, not_or] at absent
    rw [firstByte?, if_neg (Ne.symm absent.1), ih absent.2, Option.map_none]

/-- A text around a character has its characters around it. -/
theorem toList_around (front : String) (c : Char) (behind : String) :
    (front ++ String.singleton c ++ behind).toList = front.toList ++ c :: behind.toList := by
  rw [String.toList_append, String.toList_append, String.toList_singleton, List.append_assoc,
    List.singleton_append]

/-- The first place of a character is counted in bytes. -/
theorem firstByte?_around {front : String} {c : Char} (first : c ∉ front.toList) (behind : String) :
    firstByte? c (front ++ String.singleton c ++ behind).toList = some front.utf8ByteSize := by
  rw [toList_around, firstByte?_append first, byteLength_toList]

end HeaderExports.Text
