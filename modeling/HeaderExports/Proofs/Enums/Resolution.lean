import HeaderExports.Declaration.EnumValues
import Mathlib.Data.List.Basic

/-!
# Resolved values in closed form

Counting along an enumeration carries the value of the member before. What
this comes to can be said of each member alone: its value is the one of the
last literal up to it, counted on by the members between, or its own index if
no member up to it has an initializer. Counting ends for good where the signed
word ends, up to the next literal.
-/

namespace HeaderExports

namespace IntegerLiteral

/-- A number in digits with a sign lies below the largest value. -/
theorem signed?_le {radix : Nat} {digits : List Char} {value : Int}
    (hs : signed? radix digits = some value) : value ≤ maxValue := by
  unfold signed? at hs
  split at hs <;>
  · obtain ⟨number, -, hf⟩ := Option.bind_eq_some_iff.1 hs
    obtain ⟨rfl, -, hle⟩ := fitting?_eq_some.1 hf
    exact hle

/-- A literal without leading minus lies below the largest value. -/
theorem magnitude?_le {digits : List Char} {value : Int}
    (hm : magnitude? digits = some value) : value ≤ maxValue := by
  unfold magnitude? at hm
  split at hm <;> exact signed?_le hm

/-- A literal lies below the largest value. -/
theorem value?_le {literal : List Char} {value : Int} (hv : value? literal = some value) :
    value ≤ maxValue := by
  unfold value? at hv
  split at hv
  · obtain ⟨number, -, hf⟩ := Option.bind_eq_some_iff.1 hv
    obtain ⟨rfl, -, hle⟩ := fitting?_eq_some.1 hf
    exact hle
  · exact magnitude?_le hv

end IntegerLiteral

/-! ## Counting on -/

/-- The value some steps behind another one, if it fits. -/
def countedOn? (value : Int) (steps : Nat) : Option Int :=
  if value + steps ≤ IntegerLiteral.maxValue then some (value + steps) else none

/-- No step leads nowhere. -/
theorem countedOn?_zero {value : Int} (hle : value ≤ IntegerLiteral.maxValue) :
    countedOn? value 0 = some value := by
  simp [countedOn?, hle]

/-- One step more is a step behind what is counted already, and a count that
has ended does not come back. -/
theorem countedOn?_succ (value : Int) (steps : Nat) :
    countedOn? value (steps + 1) = (countedOn? value steps).bind successor? := by
  by_cases hle : value + steps ≤ IntegerLiteral.maxValue
  · have counted : countedOn? value steps = some (value + steps) := by simp [countedOn?, hle]
    have behind : value + (steps + 1 : Nat) = value + steps + 1 := by omega
    rw [counted, Option.bind_some, countedOn?, successor?, behind]
    simp only [Int.add_one_le_iff]
  · have ended : ¬ value + (steps + 1 : Nat) ≤ IntegerLiteral.maxValue := by omega
    rw [countedOn?, countedOn?, if_neg ended, if_neg hle, Option.bind_none]

namespace EnumDecl

/-! ## The count in front of a member -/

/-- The first member is read with the count given. -/
theorem getElem?_valuesFrom_zero (counted : Option Int) (members : List Enumerator) :
    (valuesFrom counted members)[0]? =
      members[0]?.map fun member => (member.name, member.value? counted) := by
  cases members <;> rfl

/-- A member behind another one is read with the count that the other leaves. -/
theorem getElem?_valuesFrom_succ {counted value : Option Int} {members : List Enumerator}
    {i : Nat} {name : String} (hi : (valuesFrom counted members)[i]? = some (name, value)) :
    (valuesFrom counted members)[i + 1]? =
      members[i + 1]?.map fun member => (member.name, member.value? (value.bind successor?)) := by
  induction members generalizing counted i with
  | nil => simp [valuesFrom] at hi
  | cons member rest ih =>
    cases i with
    | zero =>
      obtain ⟨-, rfl⟩ : member.name = name ∧ member.value? counted = value := by
        simpa [valuesFrom] using hi
      exact getElem?_valuesFrom_zero _ rest
    | succ before => exact ih hi

/-! ## The closed form -/

/-- The member at an index has an initializer. -/
def initializedAt (declared : EnumDecl) (i : Nat) : Bool :=
  declared.values[i]?.any (!·.value.isEmpty)

/-- The last index up to a given one whose member has an initializer. -/
def lastInitialized? (declared : EnumDecl) (i : Nat) : Option Nat :=
  (List.range (i + 1)).reverse.find? declared.initializedAt

/-- What the initializer at an index stands for, if it is a literal. -/
def literalAt? (declared : EnumDecl) (i : Nat) : Option Int :=
  declared.values[i]?.bind fun member => IntegerLiteral.value? member.value.toList

/-- The value of the member at an index: counted from zero if no member up to
it has an initializer, else counted on from the last initializer, if that is a
literal. -/
def closedValue? (declared : EnumDecl) (i : Nat) : Option Int :=
  match declared.lastInitialized? i with
  | none => countedOn? 0 i
  | some j => (declared.literalAt? j).bind (countedOn? · (i - j))

variable {declared : EnumDecl} {i j : Nat}

/-- No index is found exactly if no member up to the given one has an
initializer. -/
theorem lastInitialized?_eq_none :
    declared.lastInitialized? i = none ↔ ∀ k ≤ i, declared.initializedAt k = false := by
  simp only [lastInitialized?, List.find?_eq_none, List.mem_reverse, List.mem_range,
    Nat.lt_succ_iff, Bool.not_eq_true]

/-- The search looks at the given index first. -/
theorem lastInitialized?_of_initializedAt (hi : declared.initializedAt i = true) :
    declared.lastInitialized? i = some i := by
  simp [lastInitialized?, List.range_succ, hi]

/-- A member without initializer is passed by. -/
theorem lastInitialized?_succ (hi : declared.initializedAt (i + 1) = false) :
    declared.lastInitialized? (i + 1) = declared.lastInitialized? i := by
  simp [lastInitialized?, List.range_succ, hi]

/-- The index found lies up to the given one. -/
theorem le_of_lastInitialized? (hj : declared.lastInitialized? i = some j) : j ≤ i := by
  have mem := List.mem_of_find?_eq_some hj
  simpa [Nat.lt_succ_iff] using mem

/-- The index found is one with an initializer behind which there is none up
to the given one. -/
theorem lastInitialized?_spec (hj : declared.lastInitialized? i = some j) :
    declared.initializedAt j = true ∧ ∀ k, j < k → k ≤ i → declared.initializedAt k = false := by
  refine ⟨List.find?_some hj, ?_⟩
  induction i with
  | zero => exact fun k hk hle => absurd hk (by omega)
  | succ before ih =>
    intro k hk hle
    cases hi : declared.initializedAt (before + 1) with
    | true =>
      obtain rfl := Option.some.inj ((lastInitialized?_of_initializedAt hi).symm.trans hj)
      exact absurd hk (by omega)
    | false =>
      rcases Nat.le_succ_iff.1 hle with hlt | rfl
      · exact ih ((lastInitialized?_succ hi).symm.trans hj) k hk hlt
      · exact hi

/-- A member with an initializer has the value of its literal. -/
theorem closedValue?_of_initializedAt (hi : declared.initializedAt i = true) :
    declared.closedValue? i = declared.literalAt? i := by
  cases hl : declared.literalAt? i with
  | none => simp [closedValue?, lastInitialized?_of_initializedAt hi, hl]
  | some value =>
    obtain ⟨member, -, hv⟩ := Option.bind_eq_some_iff.1 hl
    simp [closedValue?, lastInitialized?_of_initializedAt hi, hl,
      countedOn?_zero (IntegerLiteral.value?_le hv)]

/-- The first member is zero if it has no initializer. -/
theorem closedValue?_zero (hi : declared.initializedAt 0 = false) :
    declared.closedValue? 0 = some 0 := by
  have nowhere : declared.lastInitialized? 0 = none :=
    lastInitialized?_eq_none.2 fun k hk => by simpa [Nat.le_zero.1 hk] using hi
  simp [closedValue?, nowhere, countedOn?_zero (by decide : (0 : Int) ≤ IntegerLiteral.maxValue)]

/-- A member without initializer is one more than the member before it. -/
theorem closedValue?_succ (hi : declared.initializedAt (i + 1) = false) :
    declared.closedValue? (i + 1) = (declared.closedValue? i).bind successor? := by
  rw [closedValue?, closedValue?, lastInitialized?_succ hi]
  cases hj : declared.lastInitialized? i with
  | none => exact countedOn?_succ 0 i
  | some j =>
    have steps : i + 1 - j = i - j + 1 := Nat.succ_sub (le_of_lastInitialized? hj)
    simp only [steps, countedOn?_succ, Option.bind_assoc]

/-- A member with an initializer is worth its literal whatever the count is,
and a member without takes the count. -/
theorem value?_eq {member : Enumerator} (hm : declared.values[i]? = some member)
    (counted : Option Int) :
    member.value? counted =
      if declared.initializedAt i then declared.literalAt? i else counted := by
  by_cases hv : member.value.isEmpty = true <;>
    simp [Enumerator.value?, initializedAt, literalAt?, hm, hv]

/-- Every member is resolved, in order and under its name, to the closed form
of the value at its index. -/
theorem resolvedValues_closed (declared : EnumDecl) :
    declared.resolvedValues.length = declared.values.length ∧
      ∀ i, declared.resolvedValues[i]? =
        declared.values[i]?.map fun member => (member.name, declared.closedValue? i) := by
  have length : declared.resolvedValues.length = declared.values.length := by
    simpa using congrArg List.length declared.map_fst_resolvedValues
  refine ⟨length, fun i => ?_⟩
  -- The member before carries its closed form, so the count in front of a member is known.
  induction i with
  | zero =>
    rw [resolvedValues, getElem?_valuesFrom_zero]
    refine Option.map_congr fun member hm => ?_
    rw [value?_eq hm]
    cases hi : declared.initializedAt 0 with
    | true => simp [closedValue?_of_initializedAt hi]
    | false => simp [closedValue?_zero hi]
  | succ before ih =>
    by_cases hlt : before + 1 < declared.values.length
    · have hb : declared.values[before]? = some declared.values[before] :=
        List.getElem?_eq_getElem (by omega)
      rw [hb, Option.map_some] at ih
      rw [resolvedValues, getElem?_valuesFrom_succ ih]
      refine Option.map_congr fun member hm => ?_
      rw [value?_eq hm]
      cases hi : declared.initializedAt (before + 1) with
      | true => simp [closedValue?_of_initializedAt hi]
      | false => simp [closedValue?_succ hi]
    · rw [List.getElem?_eq_none (by omega), List.getElem?_eq_none (by omega), Option.map_none]

/-- Counting goes on behind a literal, ends behind a name and begins anew. -/
example :
    (EnumDecl.mk "E" [⟨"A", ""⟩, ⟨"B", "0x10"⟩, ⟨"C", ""⟩, ⟨"D", "A"⟩, ⟨"F", ""⟩, ⟨"G", "-1"⟩,
      ⟨"H", ""⟩]).resolvedValues =
    [("A", some 0), ("B", some 16), ("C", some 17), ("D", none), ("F", none), ("G", some (-1)),
      ("H", some 0)] := by
  decide +kernel

end EnumDecl

end HeaderExports
