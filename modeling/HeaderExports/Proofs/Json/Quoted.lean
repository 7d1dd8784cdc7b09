import HeaderExports.Json.Scalar
import Mathlib.Data.Char

/-!
# Texts in quotes are read back

Writing replaces a character by its escape, and reading takes one escape at a
time. Each escape is read as the character it was written for, so the content
comes back unchanged, and so does whatever stands behind the closing quote.
-/

namespace HeaderExports.Json

/-- The two hexadecimal digits of a control character are read as its code. -/
theorem hexQuad?_hexDigit : ∀ code < 0x20,
    hexQuad? '0' '0' (hexDigit (code / 16)) (hexDigit (code % 16)) = some code := by
  decide

/-- The digits written for a control character take one byte each. -/
theorem utf8Size_hexDigit : ∀ value < 0x10, (hexDigit value).utf8Size = 1 := by
  decide

/-- The code unit of a control character is read from its four digits. -/
theorem readCodeUnit_control {code : Nat} (hc : code < 0x20) (rest : List Char) :
    readCodeUnit ('0' :: '0' :: hexDigit (code / 16) :: hexDigit (code % 16) :: rest) =
      .ok (code, rest) := by
  have hhigh := utf8Size_hexDigit (code / 16) (by omega)
  have hlow := utf8Size_hexDigit (code % 16) (by omega)
  have hzero : Char.utf8Size '0' = 1 := by decide
  have hbytes : Text.byteLength
      (('0' :: '0' :: hexDigit (code / 16) :: hexDigit (code % 16) :: rest).take 4) = 4 := by
    simp only [List.take_succ_cons, List.take_zero, Text.byteLength, hhigh, hlow, hzero]
  rw [readCodeUnit, hbytes, if_neg (by omega), hexQuad?_hexDigit code hc]

/-- The escape of a control character is read as that character. -/
theorem readEscape_control {c : Char} (hc : c.toNat < 0x20) (rest : List Char) :
    readEscape true ('u' :: '0' :: '0' :: hexDigit (c.toNat / 16) :: hexDigit (c.toNat % 16) ::
      rest) = .ok (c, rest) := by
  have hunit := readCodeUnit_control hc rest
  have htrailing : isTrailing c.toNat = false := by
    simp only [isTrailing, Bool.and_eq_false_imp, decide_eq_true_eq, decide_eq_false_iff_not]
    omega
  have hleading : isLeading c.toNat = false := by
    simp only [isLeading, Bool.and_eq_false_imp, decide_eq_true_eq, decide_eq_false_iff_not]
    omega
  rw [readEscape, readUnicode, hunit]
  simp only [Bool.not_true, Bool.false_eq_true, if_false, htrailing, hleading, Char.ofNat_toNat]

/-- One step of the reader undoes the escape of one character. -/
theorem readChars_escapeChar (limit : Nat) (done : List Char) (c : Char) (rest : List Char) :
    readChars true (limit + 1) done (escapeChar c ++ rest) =
      readChars true limit (c :: done) rest := by
  unfold escapeChar
  split_ifs with hquote hslash hb hf hn hr ht hcontrol
  · subst hquote
    rfl
  · subst hslash
    rfl
  · subst hb
    rfl
  · subst hf
    rfl
  · subst hn
    rfl
  · subst hr
    rfl
  · subst ht
    rfl
  · simp only [List.cons_append, List.nil_append, readChars, readEscape_control hcontrol]
  · rw [List.singleton_append, readChars]
    · rw [if_neg hcontrol]
    · exact hquote
    · intro h
      exact absurd h hslash

/-- The escape of a character is not empty. -/
theorem length_escapeChar_pos (c : Char) : 0 < (escapeChar c).length := by
  unfold escapeChar
  split_ifs <;> simp only [List.length_cons] <;> omega

/-- An escaped text has at least as many characters as its content. -/
theorem length_le_length_escapes (content : List Char) :
    content.length ≤ (content.flatMap escapeChar).length := by
  induction content with
  | nil => exact Nat.zero_le _
  | cons c content ih =>
    have hc := length_escapeChar_pos c
    rw [List.flatMap_cons, List.length_append, List.length_cons]
    omega

/-- With one step for every character and one for the quote, an escaped text
is read to its content. -/
theorem readChars_escapes {limit : Nat} {content : List Char} (hl : content.length < limit)
    (done rest : List Char) :
    readChars true limit done (content.flatMap escapeChar ++ '"' :: rest) =
      .ok (done.reverse ++ content, rest) := by
  induction content generalizing limit done with
  | nil =>
    obtain ⟨limit, rfl⟩ := Nat.exists_eq_succ_of_ne_zero (Nat.ne_of_gt hl)
    rw [List.flatMap_nil, List.nil_append, List.append_nil, readChars]
  | cons c content ih =>
    rw [List.length_cons] at hl
    obtain ⟨limit, rfl⟩ := Nat.exists_eq_succ_of_ne_zero (Nat.ne_of_gt (Nat.zero_lt_of_lt hl))
    rw [List.flatMap_cons, List.append_assoc, readChars_escapeChar, ih (Nat.lt_of_succ_lt_succ hl)]
    rw [List.reverse_cons, List.append_assoc, List.singleton_append]

/-- A written text is read back, behind its opening quote. -/
theorem readQuoted_escapes (content rest : List Char) :
    readQuoted true (content.flatMap escapeChar ++ '"' :: rest) = .ok (content, rest) := by
  have hl := length_le_length_escapes content
  rw [readQuoted, readChars_escapes]
  · rfl
  · rw [List.length_append, List.length_cons]
    omega

end HeaderExports.Json
