import HeaderExports.Proofs.Enums.Literals
import HeaderExports.Proofs.Extraction.WellFormed

/-!
# Resolving in words of 64 bits

Values are resolved over the integers and kept if they fit. Here the same is
computed in signed words, where negating the least word overflows and adding one
to the largest would wrap. What is extracted never gets there: an initializer has
at most one sign, so that its magnitude is not negative, and the count stops at
the largest word. The two computations then agree.
-/

namespace HeaderExports

open Grammar (Name signText)

namespace IntegerLiteral

/-- Why a computation in words has no result. -/
inductive Overflow where
  /-- The least word has no negative. -/
  | negation
  deriving DecidableEq, Repr

/-- The negative of a word. -/
def negated (word : Int64) : Except Overflow Int64 :=
  if word = Int64.minValue then .error .negation else .ok (-word)

/-- The word of a magnitude that fits. -/
def magnitudeWord? (digits : List Char) : Option Int64 := (magnitude? digits).map Int64.ofInt

/-- The word that a literal stands for, its sign taken off first and applied
last. -/
def word? : List Char → Except Overflow (Option Int64)
  | '-' :: rest =>
    match magnitudeWord? (dropSuffix rest) with
    | none => .ok none
    | some word => (negated word).map some
  | rest => .ok (magnitudeWord? (dropSuffix rest))

end IntegerLiteral

open IntegerLiteral (Overflow)

/-- The word behind another one; there is none behind the largest. -/
def successorWord? (word : Int64) : Option Int64 :=
  if word = Int64.maxValue then none else some (word + 1)

/-- The word of a member, given the word that counting would assign. -/
def Enumerator.word? (member : Enumerator) (counted : Option Int64) :
    Except Overflow (Option Int64) :=
  if member.value.isEmpty then .ok counted else IntegerLiteral.word? member.value.toList

/-- Words of members from a given count on. -/
def EnumDecl.wordsFrom :
    Option Int64 → List Enumerator → Except Overflow (List (String × Option Int64))
  | _, [] => .ok []
  | counted, member :: rest =>
    match member.word? counted with
    | .error overflow => .error overflow
    | .ok word =>
      match wordsFrom (word.bind successorWord?) rest with
      | .error overflow => .error overflow
      | .ok words => .ok ((member.name, word) :: words)

/-- The names of the members in order, each with its word if it has one. -/
def EnumDecl.resolvedWords (declared : EnumDecl) :
    Except Overflow (List (String × Option Int64)) :=
  wordsFrom (some 0) declared.values

/-! ## Words and values -/

/-- The limits of words are those of values. -/
theorem limits_eq : Int64.minValue.toInt = IntegerLiteral.minValue ∧
    Int64.maxValue.toInt = IntegerLiteral.maxValue := by
  decide

/-- A value that fits is the value of its word. -/
theorem toInt_ofInt_of_fits {value : Int} (hmin : IntegerLiteral.minValue ≤ value)
    (hmax : value ≤ IntegerLiteral.maxValue) : (Int64.ofInt value).toInt = value := by
  have limits : IntegerLiteral.minValue = -2 ^ 63 ∧ IntegerLiteral.maxValue = 2 ^ 63 - 1 := by
    decide
  exact Int64.toInt_ofInt_of_le (by omega) (by omega)

/-- Counting on in words is counting on. -/
theorem map_toInt_successorWord? (word : Int64) :
    (successorWord? word).map Int64.toInt = successor? word.toInt := by
  have largest : word = Int64.maxValue ↔ word.toInt = IntegerLiteral.maxValue := by
    rw [← Int64.toInt_inj, limits_eq.2]
  have limit : IntegerLiteral.maxValue = 2 ^ 63 - 1 := by decide
  have below := word.toInt_lt
  have above := word.le_toInt
  by_cases hlast : word = Int64.maxValue
  · have hend := largest.mp hlast
    rw [successorWord?, successor?, if_pos hlast, if_neg (by omega), Option.map_none]
  · have hmore : word.toInt ≠ IntegerLiteral.maxValue := mt largest.mpr hlast
    have sum : (word + 1).toInt = word.toInt + 1 := by
      rw [Int64.toInt_add, Int64.toInt_one]
      exact Int.bmod_eq_of_le (by omega) (by omega)
    rw [successorWord?, successor?, if_neg hlast, if_pos (by omega), Option.map_some, sum]

namespace IntegerLiteral

/-- A magnitude that is read has a word of its value, which is not negative. -/
theorem toInt_word_of_magnitude? {chars : List Char} {value : Int} (hu : Unsigned chars)
    (hm : magnitude? chars = some value) :
    (Int64.ofInt value).toInt = value ∧ 0 ≤ value ∧ value ≤ maxValue := by
  obtain ⟨number, -, hle, rfl⟩ := (magnitude?_eq_some_iff hu).mp hm
  have least : minValue ≤ 0 := by decide
  exact ⟨toInt_ofInt_of_fits (by omega) hle, Int.natCast_nonneg number, hle⟩

/-- A word that is not negative has a negative, which lies above the least word. -/
theorem negated_of_nonneg {word : Int64} (hw : 0 ≤ word.toInt) :
    negated word = .ok (-word) ∧ (-word).toInt = -word.toInt := by
  have hne : word ≠ Int64.minValue := by
    rintro rfl
    exact absurd hw (by decide)
  have below := word.toInt_lt
  refine ⟨if_neg hne, ?_⟩
  rw [Int64.toInt_neg]
  exact Int.bmod_eq_of_le (by omega) (by omega)

/-- A literal without sign is not negated. -/
theorem word?_of_unsigned {chars : List Char} (hu : Unsigned chars) :
    word? chars = .ok (magnitudeWord? (dropSuffix chars)) := by
  unfold word?
  split
  · next rest => exact absurd List.mem_cons_self hu.minus
  · rfl

/-- A literal of a sign and a word is resolved in words without overflow, to the
word of its value. -/
theorem word?_signText (negative : Bool) (word : Name) :
    ∃ resolved, word? (signText negative ++ word.chars) = .ok resolved ∧
      resolved.map Int64.toInt = value? (signText negative ++ word.chars) := by
  have hu := unsigned_name word
  cases negative with
  | false =>
    simp only [signText, Bool.false_eq_true, if_false, List.nil_append, word?_of_unsigned hu,
      value?_of_unsigned hu]
    refine ⟨_, rfl, ?_⟩
    cases hm : magnitude? (dropSuffix word.chars) with
    | none => simp [magnitudeWord?, hm]
    | some value => simp [magnitudeWord?, hm, toInt_word_of_magnitude? hu.dropSuffix hm]
  | true =>
    have negative : value? (signText true ++ word.chars) =
        (magnitude? (dropSuffix word.chars)).bind fun value => fitting? (-value) := rfl
    have inWords : word? (signText true ++ word.chars) =
        match magnitudeWord? (dropSuffix word.chars) with
        | none => .ok none
        | some word => (negated word).map some := rfl
    rw [negative, inWords]
    cases hm : magnitude? (dropSuffix word.chars) with
    | none => exact ⟨none, by simp [magnitudeWord?, hm], rfl⟩
    | some value =>
      obtain ⟨hvalue, hnonneg, hle⟩ := toInt_word_of_magnitude? hu.dropSuffix hm
      obtain ⟨hok, hneg⟩ := negated_of_nonneg (hvalue.symm ▸ hnonneg)
      refine ⟨some (-Int64.ofInt value), by simp [magnitudeWord?, hm, hok, Except.map], ?_⟩
      have limits : minValue = -maxValue - 1 := by decide
      have fits : fitting? (-value) = some (-value) :=
        fitting?_eq_some.mpr ⟨rfl, by omega, by omega⟩
      rw [Option.map_some, hneg, hvalue, Option.bind_some, fits]

end IntegerLiteral

/-! ## Whole enumerations -/

/-- A member of the right shape has a word exactly if it has a value, and it is
the word of that value. -/
theorem Enumerator.WellFormed.word? {member : Enumerator} (hm : member.WellFormed)
    (counted : Option Int64) :
    ∃ resolved, member.word? counted = .ok resolved ∧
      resolved.map Int64.toInt = member.value? (counted.map Int64.toInt) := by
  rw [Enumerator.word?, Enumerator.value?]
  rcases hm.value with hempty | ⟨negative, word, hword⟩
  · exact ⟨counted, by simp [hempty], by simp [hempty]⟩
  · have initialized : member.value.isEmpty = false := by simp [hword, word.nonempty]
    rw [initialized, hword, String.toList_ofList]
    exact IntegerLiteral.word?_signText negative word

/-- The value of a member of the right shape whose initializer has a minus lies
above the least value. -/
theorem Enumerator.WellFormed.minValue_lt {member : Enumerator} (hm : member.WellFormed)
    (hminus : member.value.toList.head? = some '-') {counted : Option Int} {value : Int}
    (hv : member.value? counted = some value) : IntegerLiteral.minValue < value := by
  have limits : IntegerLiteral.minValue = -IntegerLiteral.maxValue - 1 := by decide
  rcases hm.value with hempty | ⟨negative, word, hword⟩
  · rw [hempty] at hminus
    cases hminus
  · have hu := IntegerLiteral.unsigned_name word
    have initialized : member.value.isEmpty = false := by simp [hword, word.nonempty]
    rw [Enumerator.value?, initialized, if_neg Bool.false_ne_true, hword, String.toList_ofList,
      IntegerLiteral.value?_signText_eq_some_iff hu] at hv
    obtain ⟨number, -, hle, rfl⟩ := hv
    cases negative with
    | false =>
      rw [hword, String.toList_ofList] at hminus
      exact absurd (List.mem_of_head? hminus) hu.minus
    | true =>
      rw [if_pos rfl]
      omega

namespace EnumDecl

/-- Members of the right shape are resolved in words, to the words of their
values. -/
theorem wordsFrom_of_wellFormed {members : List Enumerator}
    (hm : ∀ member ∈ members, member.WellFormed) (counted : Option Int64) :
    ∃ words, wordsFrom counted members = .ok words ∧
      words.map (fun entry => (entry.1, entry.2.map Int64.toInt)) =
        valuesFrom (counted.map Int64.toInt) members := by
  induction members generalizing counted with
  | nil => exact ⟨[], rfl, rfl⟩
  | cons member members ih =>
    obtain ⟨hfirst, hrest⟩ := List.forall_mem_cons.mp hm
    obtain ⟨resolved, hword, hvalue⟩ := hfirst.word? counted
    obtain ⟨words, hwords, hvalues⟩ := ih hrest (resolved.bind successorWord?)
    refine ⟨(member.name, resolved) :: words, by rw [wordsFrom, hword]; simp only [hwords], ?_⟩
    have next : (resolved.bind successorWord?).map Int64.toInt =
        (member.value? (counted.map Int64.toInt)).bind successor? := by
      rw [← hvalue]
      cases resolved with
      | none => rfl
      | some word => exact map_toInt_successorWord? word
    rw [List.map_cons, hvalues, valuesFrom, hvalue, next]

/-- Every enumeration that is extracted is resolved in words without overflow,
each member under its name and to the word of the value that counting over the
integers gives. A member with a minus lies above the least word. -/
theorem resolvedWords_extract (marker : ExportMarker) (keepsComments : Bool) (content : String) :
    ∀ declared ∈ ((Grammar.withMarker marker keepsComments).extract content).enums,
      ∃ words, declared.resolvedWords = .ok words ∧
        words.map (fun entry => (entry.1, entry.2.map Int64.toInt)) = declared.resolvedValues ∧
        words.map (·.1) = declared.values.map (·.name) ∧
        ∀ (i : ℕ) (member : Enumerator) (word : Int64), declared.values[i]? = some member →
          member.value.toList.head? = some '-' → words[i]? = some (member.name, some word) →
            Int64.minValue < word := by
  intro declared hd
  have hall := (Grammar.wellFormed_enums marker keepsComments _ declared hd).values
  obtain ⟨words, hwords, hvalues⟩ := wordsFrom_of_wellFormed hall (some 0)
  refine ⟨words, hwords, hvalues, ?_, fun i member word hi hminus hword => ?_⟩
  · have names := congrArg (List.map (·.1)) hvalues
    rw [List.map_map] at names
    exact names.trans declared.map_fst_resolvedValues
  · obtain ⟨count, hcount⟩ := exists_count (some 0) declared.values i
    have entry := congrArg (·[i]?) hvalues
    simp only [List.getElem?_map, hword, Option.map_some] at entry
    rw [Int64.toInt_zero, hcount, hi, Option.map_some, Option.some.injEq, Prod.mk.injEq] at entry
    have hlt := (hall member (List.mem_of_getElem? hi)).minValue_lt hminus entry.2.symm
    rw [Int64.lt_iff_toInt_lt, limits_eq.1]
    exact hlt

/-- An enumeration that goes to both limits is extracted and resolved in words;
behind the largest word there is none. -/
theorem resolvedWords_extract_at_limits :
    let declared := EnumDecl.mk "E" [⟨"A", "-0x7fffffffffffffff"⟩, ⟨"B", ""⟩,
      ⟨"C", "9223372036854775807"⟩, ⟨"D", ""⟩]
    declared ∈ (Grammar.standard.extract
        "enum E { A = - 0x7fffffffffffffff, B, C = 9223372036854775807, D };").enums ∧
      ∃ words, declared.resolvedWords = .ok words ∧
        words.map (fun entry => (entry.1, entry.2.map Int64.toInt)) =
          [("A", some (-9223372036854775807)), ("B", some (-9223372036854775806)),
            ("C", some 9223372036854775807), ("D", none)] := by
  intro declared
  have extracted : declared ∈ (Grammar.standard.extract
      "enum E { A = - 0x7fffffffffffffff, B, C = 9223372036854775807, D };").enums := by
    decide +kernel
  obtain ⟨words, hwords, hvalues, -⟩ := resolvedWords_extract .standard false _ declared extracted
  exact ⟨extracted, words, hwords, hvalues.trans (by decide +kernel)⟩

/-- With a second sign, which no extracted initializer has, the negation does
overflow. -/
example : (EnumDecl.mk "E" [⟨"A", "--9223372036854775808"⟩]).resolvedWords =
    .error .negation := by
  decide +kernel

end EnumDecl

end HeaderExports
