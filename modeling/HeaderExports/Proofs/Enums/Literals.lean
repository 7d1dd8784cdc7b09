import HeaderExports.Proofs.Enums.Resolution
import HeaderExports.Proofs.Grammar.Members
import HeaderExports.Proofs.Text.Digits
import Mathlib.Data.Bool.AllAny
import Mathlib.Data.List.DropRight

/-!
# Values of integer literals

A sign and a word are an integer literal exactly if the word is one of three
numerals without its suffix, and then the literal stands for the number of the
numeral. The magnitude has to fit a signed word of 64 bits before the sign is
looked at, so the least value of such a word, whose magnitude does not fit, is
the one value that no literal has.
-/

namespace HeaderExports

open Grammar (Name signText)
open Text (IsDigit IsNumeral isDigit_iff isWord isNumeral_toDigits head?_toDigits)

namespace IntegerLiteral

/-- The word of a literal without its suffix, and the number that it writes. -/
inductive IsMagnitude : List Char → ℕ → Prop where
  /-- Hexadecimal digits stand behind a zero and a letter in either case. -/
  | hexadecimal {letter : Char} {digits : List Char} {number : ℕ}
      (marked : letter = 'x' ∨ letter = 'X') (numeral : IsNumeral 16 digits number) :
      IsMagnitude ('0' :: letter :: digits) number
  /-- Octal digits stand behind a zero. -/
  | octal {digits : List Char} {number : ℕ} (numeral : IsNumeral 8 digits number) :
      IsMagnitude ('0' :: digits) number
  /-- Zero stands alone. -/
  | zero : IsMagnitude ['0'] 0
  /-- Decimal digits do not begin with zero. -/
  | decimal {first : Char} {digits : List Char} {number : ℕ} (leading : first ≠ '0')
      (numeral : IsNumeral 10 (first :: digits) number) : IsMagnitude (first :: digits) number

/-! ## Numerals are read -/

/-- A character has a value below a radix exactly if it is that digit. -/
theorem digitValue?_eq_some_iff {radix value : ℕ} {c : Char} (hr : radix ≤ 16) :
    (digitValue? c = some value ∧ value < radix) ↔ IsDigit radix c value := by
  have order (a b : Char) : a ≤ b ↔ a.toNat ≤ b.toNat := Iff.rfl
  have codes : ('0'.toNat = 48 ∧ '9'.toNat = 57) ∧ ('a'.toNat = 97 ∧ 'z'.toNat = 122) ∧
      'A'.toNat = 65 ∧ 'Z'.toNat = 90 := by decide
  obtain ⟨⟨h0, h9⟩, ⟨ha, hz⟩, hA, hZ⟩ := codes
  rw [isDigit_iff hr, digitValue?]
  simp only [order, h0, h9, ha, hz, hA, hZ]
  split_ifs <;> simp only [Option.some.injEq, false_and, false_iff] <;> omega

/-- Digits continue a number exactly if all of them are digits of the radix; the
number they continue counts as one more digit in front. -/
theorem appendDigits?_eq_some_iff {radix start number : ℕ} {digits : List Char}
    (hr : radix ≤ 16) :
    appendDigits? radix start digits = some number ↔
      ∃ values, List.Forall₂ (IsDigit radix) digits values ∧
        number = Nat.ofDigits radix (values.reverse ++ [start]) := by
  induction digits generalizing start with
  | nil => simp [appendDigits?, eq_comm]
  | cons c digits ih =>
    -- The digit read is appended to the number in front of the digits behind it.
    have shift (values : List ℕ) (value : ℕ) :
        Nat.ofDigits radix ((value :: values).reverse ++ [start]) =
          Nat.ofDigits radix (values.reverse ++ [start * radix + value]) := by
      simp only [List.reverse_cons, List.append_assoc, List.singleton_append, Nat.ofDigits_append,
        Nat.ofDigits_cons, Nat.ofDigits_nil]
      ring
    rw [appendDigits?]
    constructor
    · intro hd
      split at hd
      · next value hv =>
        split_ifs at hd with hlt
        obtain ⟨values, hvalues, hn⟩ := ih.mp hd
        have hc := (digitValue?_eq_some_iff hr).mp ⟨hv, hlt⟩
        exact ⟨value :: values, .cons hc hvalues, hn.trans (shift values value).symm⟩
      · cases hd
    · rintro ⟨values, hvalues, hn⟩
      cases hvalues with
      | @cons _ value _ values hc hvalues =>
        obtain ⟨hv, hlt⟩ := (digitValue?_eq_some_iff hr).mpr hc
        simp only [hv, if_pos hlt]
        exact ih.mpr ⟨values, hvalues, hn.trans (shift values value)⟩

/-- A number is read from its numerals. -/
theorem natural?_eq_some_iff {radix number : ℕ} {digits : List Char} (hr : radix ≤ 16) :
    natural? radix digits = some number ↔ IsNumeral radix digits number := by
  cases digits with
  | nil => exact ⟨nofun, fun hn => absurd rfl hn.nonempty⟩
  | cons c digits =>
    rw [natural?, appendDigits?_eq_some_iff hr]
    · simp only [Nat.ofDigits_append, Nat.ofDigits_singleton, Nat.mul_zero, Nat.add_zero]
      exact ⟨fun hn => ⟨List.cons_ne_nil c digits, hn⟩, IsNumeral.values⟩
    · exact List.cons_ne_nil c digits

/-- Characters without a sign among them. -/
structure Unsigned (chars : List Char) : Prop where
  /-- No minus. -/
  minus : '-' ∉ chars
  /-- No plus. -/
  plus : '+' ∉ chars

/-- What stands behind the first character has no sign either. -/
theorem Unsigned.tail {c : Char} {chars : List Char} (hu : Unsigned (c :: chars)) :
    Unsigned chars :=
  ⟨fun hm => hu.minus (List.mem_cons_of_mem c hm), fun hm => hu.plus (List.mem_cons_of_mem c hm)⟩

/-- A number without sign is read from its numerals if it fits. -/
theorem signed?_eq_some_iff {radix : ℕ} {digits : List Char} {value : Int} (hr : radix ≤ 16)
    (hu : Unsigned digits) :
    signed? radix digits = some value ↔
      ∃ number : ℕ, IsNumeral radix digits number ∧ (number : Int) ≤ maxValue ∧
        value = number := by
  have unsigned : signed? radix digits =
      (natural? radix digits).bind fun number => fitting? (number : Int) := by
    unfold signed?
    split
    · next rest => exact absurd List.mem_cons_self hu.minus
    · next rest => exact absurd List.mem_cons_self hu.plus
    · rfl
  have least (number : ℕ) : minValue ≤ (number : Int) := by
    have negative : minValue ≤ 0 := by decide
    omega
  simp only [unsigned, Option.bind_eq_some_iff, natural?_eq_some_iff hr, fitting?_eq_some, least,
    true_and]
  exact ⟨fun ⟨number, hn, hv, hle⟩ => ⟨number, hn, hle, hv⟩,
    fun ⟨number, hn, hle, hv⟩ => ⟨number, hn, hv, hle⟩⟩

/-! ## Magnitudes are read -/

/-- Behind a zero stands a letter and a hexadecimal numeral, an octal numeral, or
nothing. -/
theorem isMagnitude_zero_iff {digits : List Char} {number : ℕ} :
    IsMagnitude ('0' :: digits) number ↔
      (∃ letter rest, (letter = 'x' ∨ letter = 'X') ∧ digits = letter :: rest ∧
        IsNumeral 16 rest number) ∨ IsNumeral 8 digits number ∨ digits = [] ∧ number = 0 := by
  constructor
  · intro hm
    cases hm with
    | hexadecimal marked numeral => exact .inl ⟨_, _, marked, rfl, numeral⟩
    | octal numeral => exact .inr (.inl numeral)
    | zero => exact .inr (.inr ⟨rfl, rfl⟩)
    | decimal leading => exact absurd rfl leading
  · rintro (⟨letter, rest, marked, rfl, numeral⟩ | numeral | ⟨rfl, rfl⟩)
    · exact .hexadecimal marked numeral
    · exact .octal numeral
    · exact .zero

/-- The letter of a hexadecimal numeral is no octal digit. -/
theorem not_isNumeral_octal {letter : Char} (hl : letter = 'x' ∨ letter = 'X')
    (digits : List Char) (number : ℕ) : ¬ IsNumeral 8 (letter :: digits) number := by
  rintro ⟨-, values, hvalues, -⟩
  cases hvalues with
  | cons hc _ =>
    have hcode := ((isDigit_iff (by decide)).mp hc)
    have codes : 'x'.toNat = 120 ∧ 'X'.toNat = 88 := by decide
    rcases hl with rfl | rfl <;> omega

/-- The numeral of a lone zero. -/
theorem isNumeral_zero_iff {number : ℕ} : IsNumeral 10 ['0'] number ↔ number = 0 := by
  constructor
  · rintro ⟨-, values, hvalues, rfl⟩
    cases hvalues with
    | cons hc hnil =>
      cases hnil
      have hcode := (isDigit_iff (by decide)).mp hc
      have code : '0'.toNat = 48 := by decide
      rw [List.reverse_singleton, Nat.ofDigits_singleton]
      omega
  · rintro rfl
    exact IsDigit.isNumeral ⟨by decide, .inl rfl⟩

/-- What begins with another character than zero is a decimal numeral. -/
theorem isMagnitude_cons_iff {c : Char} {digits : List Char} {number : ℕ} (hc : c ≠ '0') :
    IsMagnitude (c :: digits) number ↔ IsNumeral 10 (c :: digits) number := by
  refine ⟨fun hm => ?_, .decimal hc⟩
  cases hm with
  | decimal _ numeral => exact numeral
  | _ => exact absurd rfl hc

/-- A magnitude is read from its texts if it fits. -/
theorem magnitude?_eq_some_iff {digits : List Char} {value : Int} (hu : Unsigned digits) :
    magnitude? digits = some value ↔
      ∃ number : ℕ, IsMagnitude digits number ∧ (number : Int) ≤ maxValue ∧ value = number := by
  unfold magnitude?
  split
  · next digits =>
    rw [signed?_eq_some_iff (by decide) hu.tail.tail]
    refine exists_congr fun number => and_congr_left' ?_
    rw [isMagnitude_zero_iff]
    simp [not_isNumeral_octal (.inl rfl)]
  · next digits =>
    rw [signed?_eq_some_iff (by decide) hu.tail.tail]
    refine exists_congr fun number => and_congr_left' ?_
    rw [isMagnitude_zero_iff]
    simp [not_isNumeral_octal (.inr rfl)]
  · next c digits hx hX =>
    rw [signed?_eq_some_iff (by decide) hu.tail]
    refine exists_congr fun number => and_congr_left' ?_
    have unmarked : ¬ (c = 'x' ∨ c = 'X') := not_or.mpr ⟨hx, hX⟩
    rw [isMagnitude_zero_iff]
    constructor
    · exact fun hn => .inr (.inl hn)
    · rintro (⟨letter, rest, marked, he, -⟩ | hn | ⟨he, -⟩)
      · exact absurd ((List.cons.inj he).1 ▸ marked) unmarked
      · exact hn
      · cases he
  · next hx hX hzero =>
    rw [signed?_eq_some_iff (by decide) hu]
    refine exists_congr fun number => and_congr_left' ?_
    rcases digits with _ | ⟨c, digits⟩
    · exact ⟨fun hn => absurd rfl hn.nonempty, nofun⟩
    · by_cases hc : c = '0'
      · subst hc
        obtain rfl : digits = [] := by
          cases digits with
          | nil => rfl
          | cons d digits => exact (hzero d digits rfl).elim
        have empty : ¬ IsNumeral 8 [] number := fun hn => hn.nonempty rfl
        rw [isNumeral_zero_iff, isMagnitude_zero_iff]
        simp [empty]
      · exact (isMagnitude_cons_iff hc).symm

/-! ## Literals -/

/-- The suffix of a literal is dropped from its end as long as there are letters
of suffixes. -/
theorem dropSuffix_eq_rdropWhile (chars : List Char) :
    dropSuffix chars = chars.rdropWhile (· ∈ ['u', 'U', 'l', 'L']) := by
  have letters : isSuffix = fun c => decide (c ∈ ['u', 'U', 'l', 'L']) := by
    funext c
    simp [isSuffix, Bool.or_assoc, Bool.decide_or, beq_eq_decide]
  rw [dropSuffix, letters, List.rdropWhile]

/-- Dropping the suffix leaves nothing new. -/
theorem Unsigned.dropSuffix {chars : List Char} (hu : Unsigned chars) :
    Unsigned (dropSuffix chars) := by
  rw [dropSuffix_eq_rdropWhile]
  exact ⟨fun hm => hu.minus ((List.rdropWhile_prefix _ _).subset hm),
    fun hm => hu.plus ((List.rdropWhile_prefix _ _).subset hm)⟩

/-- A word has no sign among its characters. -/
theorem unsigned_name (word : Name) : Unsigned word.chars := by
  have signs : isWord '-' = false ∧ isWord '+' = false := by decide
  exact ⟨word.not_mem signs.1, word.not_mem signs.2⟩

/-- A literal without sign is its magnitude. -/
theorem value?_of_unsigned {chars : List Char} (hu : Unsigned chars) :
    value? chars = magnitude? (dropSuffix chars) := by
  unfold value?
  split
  · next rest => exact absurd List.mem_cons_self hu.minus
  · rfl

/-- A literal is read from a sign and a magnitude that fits without it. -/
theorem value?_signText_eq_some_iff {negative : Bool} {chars : List Char} {value : Int}
    (hu : Unsigned chars) :
    value? (signText negative ++ chars) = some value ↔
      ∃ number : ℕ, IsMagnitude (dropSuffix chars) number ∧ (number : Int) ≤ maxValue ∧
        value = if negative then -(number : Int) else number := by
  cases negative with
  | false =>
    simp only [signText, Bool.false_eq_true, if_false, List.nil_append, value?_of_unsigned hu]
    exact magnitude?_eq_some_iff hu.dropSuffix
  | true =>
    have negated : value? (signText true ++ chars) =
        (magnitude? (dropSuffix chars)).bind fun number => fitting? (-number) := rfl
    have limits : minValue = -maxValue - 1 := by decide
    simp only [negated, Option.bind_eq_some_iff, magnitude?_eq_some_iff hu.dropSuffix,
      fitting?_eq_some, if_true]
    constructor
    · rintro ⟨_, ⟨number, hm, hle, rfl⟩, rfl, -⟩
      exact ⟨number, hm, hle, rfl⟩
    · rintro ⟨number, hm, hle, rfl⟩
      exact ⟨number, ⟨number, hm, hle, rfl⟩, rfl, by omega⟩

/-- A sign and a word are a literal exactly if the word without its suffix is a
hexadecimal, octal or decimal magnitude that fits; the literal stands for that
magnitude, negated if there is a sign. -/
theorem value?_signedWord (negative : Bool) (word : Name) (value : Int) :
    value? (signText negative ++ word.chars) = some value ↔
      ∃ number : ℕ, IsMagnitude (word.chars.rdropWhile (· ∈ ['u', 'U', 'l', 'L'])) number ∧
        (number : Int) ≤ maxValue ∧ value = if negative then -(number : Int) else number := by
  rw [← dropSuffix_eq_rdropWhile]
  exact value?_signText_eq_some_iff (unsigned_name word)

/-! ## Decimal literals -/

/-- A numeral writes one number. -/
theorem number_eq_of_isNumeral {digits : List Char} {number other : ℕ}
    (hn : IsNumeral 10 digits number) (ho : IsNumeral 10 digits other) : number = other := by
  rw [← natural?_eq_some_iff (by decide)] at hn ho
  exact Option.some.inj (hn.symm.trans ho)

/-- The decimal digits of a number are a magnitude, of that number only. -/
theorem isMagnitude_toDigits_iff {number other : ℕ} :
    IsMagnitude (Nat.toDigits 10 number) other ↔ other = number := by
  rcases Nat.eq_zero_or_pos number with rfl | hpos
  · rw [Nat.toDigits_zero, isMagnitude_zero_iff]
    have empty : ¬ IsNumeral 8 [] other := fun hn => hn.nonempty rfl
    simp [empty]
  · have hn := isNumeral_toDigits number
    have leading := head?_toDigits (Nat.ne_of_gt hpos)
    obtain ⟨c, digits, he⟩ := List.exists_cons_of_ne_nil hn.nonempty
    rw [he] at hn leading ⊢
    have hc : c ≠ '0' := fun h => leading (h ▸ List.head?_cons)
    rw [isMagnitude_cons_iff hc]
    exact ⟨fun ho => number_eq_of_isNumeral ho hn, fun ho => ho ▸ hn⟩

/-- Decimal digits have neither a sign nor a suffix. -/
theorem toDigits_plain (number : ℕ) :
    Unsigned (Nat.toDigits 10 number) ∧
      dropSuffix (Nat.toDigits 10 number) = Nat.toDigits 10 number := by
  have digit {c : Char} (hc : c ∈ Nat.toDigits 10 number) : c.isDigit = true :=
    Nat.isDigit_of_mem_toDigits (by decide) (by decide) hc
  refine ⟨⟨fun hm => absurd (digit hm) (by decide), fun hm => absurd (digit hm) (by decide)⟩, ?_⟩
  rw [dropSuffix_eq_rdropWhile, List.rdropWhile_eq_self_iff]
  intro hne
  have last := digit (List.getLast_mem hne)
  have letters : ∀ c ∈ ['u', 'U', 'l', 'L'], c.isDigit = false :=
    List.all_iff_forall_prop.mp (by decide)
  rw [decide_eq_true_eq]
  exact fun hm => Bool.false_ne_true ((letters _ hm).symm.trans last)

/-- An integer is written as its sign and the digits of its magnitude. -/
theorem toList_toString (value : Int) :
    (toString value).toList = signText (value < 0) ++ Nat.toDigits 10 value.natAbs := by
  cases value with
  | ofNat number =>
    have sign : signText (Int.ofNat number < 0) = [] := if_neg (by simp)
    rw [sign, List.nil_append]
    exact (congrArg String.toList Nat.repr_eq_ofList_toDigits).trans String.toList_ofList
  | negSucc number =>
    have text : toString (Int.negSucc number) = "-" ++ Nat.repr (number + 1) := rfl
    have sign : signText (Int.negSucc number < 0) = "-".toList := if_pos (by simp)
    simp only [text, sign, String.toList_append, Nat.repr_eq_ofList_toDigits,
      String.toList_ofList, Int.natAbs_negSucc, Nat.succ_eq_add_one]

/-- The decimal text of a value that fits is read as that value, but for the
least value, which has no literal. -/
theorem value?_toString {value : Int} (hmin : minValue ≤ value) (hmax : value ≤ maxValue) :
    value? (toString value).toList = if value = minValue then none else some value := by
  have limits : minValue = -maxValue - 1 := by decide
  obtain ⟨unsigned, hsuffix⟩ := toDigits_plain value.natAbs
  refine Option.ext fun read => ?_
  rw [toList_toString, value?_signText_eq_some_iff unsigned, hsuffix]
  simp only [isMagnitude_toDigits_iff, exists_eq_left]
  by_cases hleast : value = minValue
  · have exceeds : ¬ (value.natAbs : Int) ≤ maxValue := by omega
    rw [if_pos hleast]
    exact ⟨fun hread => absurd hread.1 exceeds, nofun⟩
  · rw [if_neg hleast, Option.some.injEq]
    by_cases hneg : value < 0
    · simp only [hneg, decide_true, if_true]
      omega
    · simp only [hneg, decide_false, Bool.false_eq_true, if_false]
      omega

end IntegerLiteral

namespace EnumDecl

/-- Every member is read with some count. -/
theorem exists_count (counted : Option Int) (members : List Enumerator) (i : ℕ) :
    ∃ count, (valuesFrom counted members)[i]? =
      members[i]?.map fun member => (member.name, member.value? count) := by
  induction members generalizing counted i with
  | nil => exact ⟨counted, rfl⟩
  | cons member members ih =>
    cases i with
    | zero => exact ⟨counted, rfl⟩
    | succ i => exact ih ((member.value? counted).bind successor?) i

/-- A member whose initializer is the decimal text of a value that fits has that
value, whatever stands around it, and a member without initializer behind it has
the next one as long as that fits. The least value is the exception: its text is
no literal, so that neither of the two members has a value. -/
theorem resolvedValues_decimal {declared : EnumDecl} {i : ℕ} {name : String} {value : Int}
    (hmin : IntegerLiteral.minValue ≤ value) (hmax : value ≤ IntegerLiteral.maxValue)
    (hi : declared.values[i]? = some ⟨name, toString value⟩) :
    declared.resolvedValues[i]? =
        some (name, if value = IntegerLiteral.minValue then none else some value) ∧
      ∀ next, declared.values[i + 1]? = some ⟨next, ""⟩ →
        declared.resolvedValues[i + 1]? = some (next,
          if value = IntegerLiteral.minValue ∨ value = IntegerLiteral.maxValue then none
          else some (value + 1)) := by
  obtain ⟨count, hcount⟩ := exists_count (some 0) declared.values i
  have initialized : (toString value).isEmpty = false := by
    rw [← Bool.not_eq_true, String.isEmpty_iff]
    intro hempty
    have digits := IntegerLiteral.toList_toString value
    rw [hempty] at digits
    exact Nat.toDigits_ne_nil (List.append_eq_nil_iff.mp digits.symm).2
  have here : declared.resolvedValues[i]? =
      some (name, if value = IntegerLiteral.minValue then none else some value) := by
    rw [resolvedValues, hcount, hi, Option.map_some, Enumerator.value?, initialized,
      if_neg Bool.false_ne_true, IntegerLiteral.value?_toString hmin hmax]
  refine ⟨here, fun next hnext => ?_⟩
  rw [resolvedValues, getElem?_valuesFrom_succ here, hnext, Option.map_some, Enumerator.value?]
  by_cases hleast : value = IntegerLiteral.minValue
  · simp [hleast]
  · have counts : successor? value =
        if value = IntegerLiteral.maxValue then none else some (value + 1) := by
      unfold successor?
      split_ifs <;> first | rfl | omega
    simp [hleast, counts]

/-- The value next to the least one is resolved behind another member, and so is
the member behind it. -/
theorem resolvedValues_next_to_least :
    let declared := EnumDecl.mk "E" [⟨"A", "0x10"⟩, ⟨"B", "-9223372036854775807"⟩, ⟨"C", ""⟩]
    (declared.resolvedValues[1]? = some ("B", some (-9223372036854775807))) ∧
      declared.resolvedValues[2]? = some ("C", some (-9223372036854775806)) := by
  intro declared
  have written : declared.values[1]? = some ⟨"B", toString (-9223372036854775807 : Int)⟩ := rfl
  have hboth := resolvedValues_decimal (by decide) (by decide) written
  exact ⟨hboth.1, hboth.2 "C" rfl⟩

/-- The least value of a signed word in decimal digits is not resolved, nor is the
member behind it. So not every value that fits has the decimal text that it is
resolved from. -/
theorem least_value_unresolved :
    (toString IntegerLiteral.minValue = "-9223372036854775808" ∧
      (EnumDecl.mk "E" [⟨"A", "-9223372036854775808"⟩, ⟨"B", ""⟩]).resolvedValues =
        [("A", none), ("B", none)]) ∧
    ¬∀ value, IntegerLiteral.minValue ≤ value → value ≤ IntegerLiteral.maxValue →
      ∀ (declared : EnumDecl) (i : ℕ) (name : String),
        declared.values[i]? = some ⟨name, toString value⟩ →
          declared.resolvedValues[i]? = some (name, some value) := by
  refine ⟨by decide +kernel, fun hall => ?_⟩
  have hleast := hall IntegerLiteral.minValue le_rfl (by decide)
    ⟨"E", [⟨"A", "-9223372036854775808"⟩, ⟨"B", ""⟩]⟩ 0 "A" rfl
  exact absurd hleast (by decide +kernel)

end EnumDecl

end HeaderExports
