import HeaderExports.Proofs.Structs.FieldNames

/-!
# Array suffixes decompose every name

A name is read up to its first opening bracket, and from there up to the next closing
one, whatever other characters and brackets it has. The base name and the array size
are the pieces of the name that end there, and cutting them out at the bytes of the
brackets never fails.
-/

namespace HeaderExports

open Text (cut cut_eq_ok_iff firstByte? firstByte?_of_not_mem first_inj)

/-! ## Brackets in a name -/

/-- A character that stands in a text stands there for a first time. -/
theorem Text.exists_first {text : String} {c : Char} (hc : c ∈ text.toList) :
    ∃ front behind, text = front ++ String.singleton c ++ behind ∧ c ∉ front.toList := by
  obtain ⟨front, behind, htext, hfront⟩ := List.eq_append_cons_of_mem hc
  refine ⟨String.ofList front, String.ofList behind, ?_, ?_⟩
  · rw [← String.toList_inj, toList_around, String.toList_ofList, String.toList_ofList, htext]
  · rwa [String.toList_ofList]

namespace Field

/-- How the brackets stand in a name by which its array suffix is found. -/
inductive Bracketed : String → Prop
  /-- No bracket is opened. -/
  | plain {name : String} (hn : '[' ∉ name.toList) : Bracketed name
  /-- No bracket is closed behind the first one that is opened. -/
  | unclosed {front behind : String} (hf : '[' ∉ front.toList) (hb : ']' ∉ behind.toList) :
    Bracketed (front ++ "[" ++ behind)
  /-- The first bracket that is opened and the next one that is closed enclose a size,
  which may be empty. -/
  | closed {front size : String} (hf : '[' ∉ front.toList) (hs : ']' ∉ size.toList)
      (rest : String) : Bracketed (front ++ "[" ++ (size ++ "]" ++ rest))

/-- In every name the brackets stand in one of the three ways. -/
theorem bracketed (name : String) : Bracketed name := by
  by_cases hopen : '[' ∈ name.toList
  · obtain ⟨front, behind, rfl, hf⟩ := Text.exists_first hopen
    by_cases hclose : ']' ∈ behind.toList
    · obtain ⟨size, rest, rfl, hs⟩ := Text.exists_first hclose
      exact .closed hf hs rest
    · exact .unclosed hf hclose
  · exact .plain hopen

/-- A text around an opening bracket. -/
theorem toList_opened (front behind : String) :
    (front ++ "[" ++ behind).toList = front.toList ++ '[' :: behind.toList :=
  Text.toList_around front '[' behind

/-- A text around a closing bracket. -/
theorem toList_closed (size rest : String) :
    (size ++ "]" ++ rest).toList = size.toList ++ ']' :: rest.toList :=
  Text.toList_around size ']' rest

/-- What stands in front of the first opening bracket has no part in the size. -/
theorem betweenBrackets?_opened {front : List Char} (hf : '[' ∉ front) (behind : List Char) :
    betweenBrackets? (front ++ '[' :: behind) = betweenBrackets? ('[' :: behind) := by
  rw [betweenBrackets?, List.dropWhile_append_of_pos (forall_ne_of_not_mem hf)]
  rfl

/-- No size is found without a closing bracket. -/
theorem betweenBrackets?_unclosed {behind : List Char} (hb : ']' ∉ behind) :
    betweenBrackets? ('[' :: behind) = none := by
  have hinside : behind.takeWhile (· ≠ ']') = behind :=
    List.takeWhile_eq_self_iff.mpr (forall_ne_of_not_mem hb)
  rw [betweenBrackets?, List.dropWhile_cons_of_neg (by decide)]
  simp only [hinside, decide_true, Bool.or_true, if_true]

variable {field : Field} {front behind size rest : String}

/-- What stands in front of the first opening bracket is the base name. -/
theorem baseName_opened (hname : field.name = front ++ "[" ++ behind) (hf : '[' ∉ front.toList) :
    field.baseName = front := by
  rw [Field.baseName, hname, toList_opened, beforeBracket_append hf, String.ofList_toList]

/-- There is no size without a closing bracket. -/
theorem arraySize?_unclosed (hname : field.name = front ++ "[" ++ behind)
    (hf : '[' ∉ front.toList) (hb : ']' ∉ behind.toList) : field.arraySize? = none := by
  rw [arraySize?, hname, toList_opened, betweenBrackets?_opened hf, betweenBrackets?_unclosed hb,
    Option.map_none]

/-- What stands between the first opening bracket and the next closing one is the size,
unless nothing stands there. -/
theorem arraySize?_closed (hname : field.name = front ++ "[" ++ (size ++ "]" ++ rest))
    (hf : '[' ∉ front.toList) (hs : ']' ∉ size.toList) :
    field.arraySize? = if size = "" then none else some size := by
  rw [arraySize?, hname, toList_opened, toList_closed]
  by_cases hempty : size = ""
  · rw [hempty, betweenBrackets?_opened hf]
    rfl
  · have hne : size.toList ≠ [] := fun h => hempty (String.toList_eq_nil_iff.mp h)
    rw [betweenBrackets?_append hf hs hne, Option.map_some, String.ofList_toList, if_neg hempty]

/-! ## Parts of a name -/

/-- The base name is the name up to the first opening bracket, or all of it. -/
theorem name_eq_baseName_or_append (field : Field) :
    '[' ∉ field.baseName.toList ∧
      (field.name = field.baseName ∨ ∃ behind, field.name = field.baseName ++ "[" ++ behind) := by
  obtain ⟨type, name⟩ := field
  cases bracketed name with
  | plain hn =>
    rw [baseName_of_not_mem hn]
    exact ⟨hn, .inl rfl⟩
  | @unclosed front behind hf hb =>
    rw [baseName_opened rfl hf]
    exact ⟨hf, .inr ⟨behind, rfl⟩⟩
  | @closed front size hf hs rest =>
    rw [baseName_opened rfl hf]
    exact ⟨hf, .inr ⟨size ++ "]" ++ rest, rfl⟩⟩

/-- A size ends at the first closing bracket. -/
theorem size_inj {other rest' : String} (hs : ']' ∉ size.toList) (ho : ']' ∉ other.toList)
    (he : size ++ "]" ++ rest = other ++ "]" ++ rest') : size = other := by
  have hchars := congrArg String.toList he
  rw [toList_closed, toList_closed] at hchars
  exact String.toList_inj.mp (first_inj hs ho hchars).1

/-- The array size is what the first opening bracket and the next closing one enclose,
if they do and it is not empty. -/
theorem arraySize?_eq_some_iff (field : Field) (size : String) :
    field.arraySize? = some size ↔
      (size ≠ "" ∧ ']' ∉ size.toList) ∧
        ∃ rest, field.name = field.baseName ++ "[" ++ (size ++ "]" ++ rest) := by
  obtain ⟨type, name⟩ := field
  cases bracketed name with
  | plain hn =>
    rw [arraySize?_of_not_mem hn]
    refine iff_of_false (Option.some_ne_none size).symm ?_
    rintro ⟨-, rest, hname⟩
    -- A size would put an opening bracket in the name.
    have hchars := congrArg String.toList hname
    rw [toList_opened] at hchars
    exact hn (hchars ▸ List.mem_append_right _ List.mem_cons_self)
  | @unclosed front behind hf hb =>
    rw [arraySize?_unclosed rfl hf hb, baseName_opened rfl hf]
    refine iff_of_false (Option.some_ne_none size).symm ?_
    rintro ⟨-, rest, hname⟩
    -- A size would put a closing bracket behind the opening one.
    rw [(String.append_right_inj _).mp hname, toList_closed] at hb
    exact hb (List.mem_append_right _ List.mem_cons_self)
  | @closed front inside hf hi behind =>
    rw [arraySize?_closed rfl hf hi, baseName_opened rfl hf, Option.ite_none_left_eq_some]
    constructor
    · rintro ⟨hne, hsize⟩
      cases hsize
      exact ⟨⟨hne, hi⟩, behind, rfl⟩
    · rintro ⟨⟨hne, hs⟩, rest, hname⟩
      have hsize : inside = size := size_inj hi hs ((String.append_right_inj _).mp hname)
      exact ⟨hsize ▸ hne, congrArg some hsize⟩

/-! ## Pieces of a name -/

/-- The first opening bracket is found behind what stands in front of it. -/
theorem firstByte?_opened (hname : field.name = front ++ "[" ++ behind)
    (hf : '[' ∉ front.toList) : firstByte? '[' field.name.toList = some front.utf8ByteSize := by
  rw [hname]
  exact Text.firstByte?_around hf behind

/-- The bracket at which a suffix begins is not a closing one. -/
theorem not_mem_suffix (hb : ']' ∉ behind.toList) : ']' ∉ ("[" ++ behind).toList := by
  rw [String.toList_append, List.mem_append, not_or]
  exact ⟨by decide, hb⟩

/-- The base name is cut out in front of the first opening bracket. -/
theorem cutBaseName_opened (hname : field.name = front ++ "[" ++ behind)
    (hf : '[' ∉ front.toList) : field.cutBaseName = .ok front := by
  rw [cutBaseName, firstByte?_opened hname hf]
  refine cut_eq_ok_iff.mpr ⟨"", "[" ++ behind, ?_, ?_⟩
  · rw [hname, String.empty_append, String.append_assoc]
  · rw [String.utf8ByteSize_empty, String.empty_append]

/-- The base name is cut out of every name. -/
theorem cutBaseName_eq (field : Field) : field.cutBaseName = .ok field.baseName := by
  obtain ⟨type, name⟩ := field
  cases bracketed name with
  | plain hn => rw [cutBaseName, firstByte?_of_not_mem hn, baseName_of_not_mem hn]
  | unclosed hf hb => rw [cutBaseName_opened rfl hf, baseName_opened rfl hf]
  | closed hf hs rest => rw [cutBaseName_opened rfl hf, baseName_opened rfl hf]

/-- The array size of a name with an opening bracket is cut out in front of the first
closing bracket of its suffix. -/
theorem cutArraySize?_opened (hname : field.name = front ++ "[" ++ behind)
    (hf : '[' ∉ front.toList) :
    field.cutArraySize? =
      match firstByte? ']' ("[" ++ behind).toList with
      | none => .ok none
      | some closing => do
        let size ← cut field.name ⟨front.utf8ByteSize + 1, closing + front.utf8ByteSize⟩
        return if size = "" then none else some size := by
  have hsuffix : cut field.name ⟨front.utf8ByteSize, field.name.utf8ByteSize⟩ =
      .ok ("[" ++ behind) := by
    refine cut_eq_ok_iff.mpr ⟨front, "", ?_, ?_⟩
    · rw [String.append_empty, hname, String.append_assoc]
    · rw [hname, String.append_assoc]
  rw [cutArraySize?, firstByte?_opened hname hf]
  simp only [hsuffix]
  rfl

/-- The size is cut out between the brackets. -/
theorem cut_size (front size rest : String) :
    cut (front ++ "[" ++ (size ++ "]" ++ rest))
        ⟨front.utf8ByteSize + 1, ("[" ++ size).utf8ByteSize + front.utf8ByteSize⟩ = .ok size := by
  refine cut_eq_ok_iff.mpr ⟨front ++ "[", "]" ++ rest, ?_, ?_⟩
  · simp only [String.append_assoc]
  · -- The size starts on the byte behind the bracket, which has one byte itself.
    have hbracket : "[".utf8ByteSize = 1 := rfl
    simp only [String.utf8ByteSize_append, hbracket, Text.Span.mk.injEq, true_and]
    omega

/-- The array size is cut out of every name. -/
theorem cutArraySize?_eq (field : Field) : field.cutArraySize? = .ok field.arraySize? := by
  obtain ⟨type, name⟩ := field
  cases bracketed name with
  | plain hn => rw [cutArraySize?, firstByte?_of_not_mem hn, arraySize?_of_not_mem hn]
  | @unclosed front behind hf hb =>
    have hclosing : firstByte? ']' ("[" ++ behind).toList = none :=
      firstByte?_of_not_mem (not_mem_suffix hb)
    rw [cutArraySize?_opened rfl hf, hclosing, arraySize?_unclosed rfl hf hb]
  | @closed front size hf hs rest =>
    have hclosing : firstByte? ']' ("[" ++ (size ++ "]" ++ rest)).toList =
        some ("[" ++ size).utf8ByteSize := by
      rw [← String.append_assoc, ← String.append_assoc]
      exact Text.firstByte?_around (not_mem_suffix hs) rest
    rw [cutArraySize?_opened rfl hf, hclosing, arraySize?_closed rfl hf hs]
    simp only [cut_size]
    rfl

/-- The base name of a field is its name up to the first opening bracket, or all of it
if no bracket is opened. Its array size is what stands between that bracket and the
next closing one, if there is such a bracket and anything stands between them. Both are
cut out of the name at the bytes of the brackets, and whatever the name is, no cut
leaves it, is inverted or has an end inside of a character. -/
theorem arraySuffix_exact (field : Field) :
    ('[' ∉ field.baseName.toList ∧
        (field.name = field.baseName ∨
          ∃ behind, field.name = field.baseName ++ "[" ++ behind)) ∧
      (∀ size, field.arraySize? = some size ↔
        (size ≠ "" ∧ ']' ∉ size.toList) ∧
          ∃ rest, field.name = field.baseName ++ "[" ++ size ++ "]" ++ rest) ∧
      field.cutBaseName = .ok field.baseName ∧ field.cutArraySize? = .ok field.arraySize? := by
  refine ⟨field.name_eq_baseName_or_append, fun size => ?_, field.cutBaseName_eq,
    field.cutArraySize?_eq⟩
  simp only [field.arraySize?_eq_some_iff size, String.append_assoc]

/-- A size may itself have an opening bracket. -/
example : (Field.mk "int" "é[[1]").cutArraySize? = .ok (some "[1") := by cbv

end Field

end HeaderExports
