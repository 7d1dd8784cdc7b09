import Mathlib.Data.List.Forall2
import Mathlib.Data.Nat.Digits.Defs
import Mathlib.Data.Char

/-!
# Numbers in digits

A digit stands for a value below its radix, letters of either case for ten and
more. A numeral is a run of digits, the most significant first. What it writes
is said with the digits of the library, without any reader.
-/

namespace HeaderExports.Text

/-- A character is a digit of a radix and stands for a value. -/
structure IsDigit (radix : ℕ) (c : Char) (value : ℕ) : Prop where
  /-- The value lies below the radix. -/
  lt : value < radix
  /-- The character is the digit of the value, a letter in either case. -/
  digit : c = Nat.digitChar value ∨ c = (Nat.digitChar value).toUpper

/-- Characters are digits of a radix, at least one of them, and write a number. -/
structure IsNumeral (radix : ℕ) (digits : List Char) (number : ℕ) : Prop where
  /-- There is a digit. -/
  nonempty : digits ≠ []
  /-- The values of the digits make up the number. -/
  values : ∃ values, List.Forall₂ (IsDigit radix) digits values ∧
    number = Nat.ofDigits radix values.reverse

/-! ## Digits by their codes -/

/-- The code of a digit from ten on, in lower case. -/
theorem toNat_digitChar_of_ten_le : ∀ value < 16, 10 ≤ value →
    (Nat.digitChar value).toNat = 87 + value := by
  decide

/-- The code of a digit from ten on, in upper case. -/
theorem toNat_toUpper_digitChar : ∀ value < 16, 10 ≤ value →
    (Nat.digitChar value).toUpper.toNat = 55 + value := by
  decide

/-- Digits below ten have no case. -/
theorem toUpper_digitChar_of_lt_ten : ∀ value < 10,
    (Nat.digitChar value).toUpper = Nat.digitChar value := by
  decide

/-- The digits of a radix up to sixteen by their codes. -/
theorem isDigit_iff {radix value : ℕ} {c : Char} (hr : radix ≤ 16) :
    IsDigit radix c value ↔ value < radix ∧ (value < 10 ∧ c.toNat = 48 + value ∨
      10 ≤ value ∧ (c.toNat = 87 + value ∨ c.toNat = 55 + value)) := by
  have same (d : Char) : c = d ↔ c.toNat = d.toNat := Char.toNat_inj.symm
  constructor
  · rintro ⟨hlt, hdigit⟩
    refine ⟨hlt, ?_⟩
    rcases Nat.lt_or_ge value 10 with hten | hten
    · rw [toUpper_digitChar_of_lt_ten value hten, or_self, same,
        Nat.toNat_digitChar_of_lt_ten hten] at hdigit
      exact .inl ⟨hten, hdigit⟩
    · rw [same, same, toNat_digitChar_of_ten_le value (by omega) hten,
        toNat_toUpper_digitChar value (by omega) hten] at hdigit
      exact .inr ⟨hten, hdigit⟩
  · rintro ⟨hlt, ⟨hten, hcode⟩ | ⟨hten, hcode⟩⟩
    · refine ⟨hlt, .inl ?_⟩
      rw [same, Nat.toNat_digitChar_of_lt_ten hten, hcode]
    · refine ⟨hlt, ?_⟩
      rw [same, same, toNat_digitChar_of_ten_le value (by omega) hten,
        toNat_toUpper_digitChar value (by omega) hten]
      exact hcode

/-! ## Numerals -/

/-- One digit is a numeral. -/
theorem IsDigit.isNumeral {radix value : ℕ} {c : Char} (hc : IsDigit radix c value) :
    IsNumeral radix [c] value where
  nonempty := List.cons_ne_nil c []
  values := ⟨[value], .cons hc .nil, by rw [List.reverse_singleton, Nat.ofDigits_singleton]⟩

/-- A digit behind a numeral makes it longer. -/
theorem IsNumeral.concat {radix number value : ℕ} {digits : List Char} {c : Char}
    (hn : IsNumeral radix digits number) (hc : IsDigit radix c value) :
    IsNumeral radix (digits ++ [c]) (radix * number + value) where
  nonempty := List.append_ne_nil_of_right_ne_nil _ (List.cons_ne_nil c [])
  values := by
    obtain ⟨values, hvalues, rfl⟩ := hn.values
    refine ⟨values ++ [value], List.rel_append hvalues (List.forall₂_cons.mpr ⟨hc, .nil⟩), ?_⟩
    rw [List.reverse_append, List.reverse_singleton, List.singleton_append, Nat.ofDigits_cons,
      Nat.add_comm]

/-- The digits that the library writes for a number are a numeral of it. -/
theorem isNumeral_toDigits (number : ℕ) : IsNumeral 10 (Nat.toDigits 10 number) number := by
  induction number using Nat.strong_induction_on with
  | _ number ih =>
    have digit (value : ℕ) (hv : value < 10) : IsDigit 10 (Nat.digitChar value) value :=
      ⟨hv, .inl rfl⟩
    rcases Nat.lt_or_ge number 10 with hlt | hge
    · rw [Nat.toDigits_of_lt_base hlt]
      exact (digit number hlt).isNumeral
    · rw [Nat.toDigits_of_base_le (by decide) hge]
      have longer := (ih (number / 10) (by omega)).concat (digit (number % 10) (by omega))
      rwa [Nat.div_add_mod] at longer

/-- The digits that the library writes for a number begin with zero for zero
alone. -/
theorem head?_toDigits {number : ℕ} (hn : number ≠ 0) :
    (Nat.toDigits 10 number).head? ≠ some '0' := by
  induction number using Nat.strong_induction_on with
  | _ number ih =>
    rcases Nat.lt_or_ge number 10 with hlt | hge
    · rw [Nat.toDigits_of_lt_base hlt, List.head?_cons, Ne, Option.some.injEq,
        Nat.digitChar_eq_zero]
      exact hn
    · rw [Nat.toDigits_of_base_le (by decide) hge,
        List.head?_append_of_ne_nil _ Nat.toDigits_ne_nil]
      exact ih (number / 10) (by omega) (by omega)

end HeaderExports.Text
