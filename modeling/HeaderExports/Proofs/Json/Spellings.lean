import HeaderExports.Json.Scalar
import HeaderExports.Proofs.Text.Digits

/-!
# Ways to write a text

A text in quotes is a run of pieces: characters that stand for themselves,
short escapes, and escapes of code units. A character may be written by any
piece that stands for it; one outside the basic plane also by the escapes of
its two surrogates. The reader of texts takes a run of pieces exactly if it
spells a text, and skipping passes over any run.
-/

namespace HeaderExports.Json

open Text (IsDigit IsNumeral isDigit_iff)

/-! ## Code units -/

/-- Four hexadecimal digits and the code unit they write. -/
structure CodeUnit where
  /-- The digits. -/
  digits : List Char
  /-- The number of the code unit. -/
  number : ℕ
  /-- There are four digits. -/
  length : digits.length = 4
  /-- The digits write the number. -/
  numeral : IsNumeral 16 digits number

/-- The code unit of the lower sixteen bits of a number, in lower case. -/
def CodeUnit.ofNumber (number : ℕ) : CodeUnit where
  digits := [Nat.digitChar (number / 0x1000 % 16), Nat.digitChar (number / 0x100 % 16),
    Nat.digitChar (number / 0x10 % 16), Nat.digitChar (number % 16)]
  number := number % 0x10000
  length := rfl
  numeral := by
    have digit (value : ℕ) : IsDigit 16 (Nat.digitChar (value % 16)) (value % 16) :=
      ⟨Nat.mod_lt value (by decide), .inl rfl⟩
    have numeral := (((digit (number / 0x1000)).isNumeral.concat (digit (number / 0x100))).concat
      (digit (number / 0x10))).concat (digit number)
    have bits : 16 * (16 * (16 * (number / 0x1000 % 16) + number / 0x100 % 16) +
        number / 0x10 % 16) + number % 16 = number % 0x10000 := by
      omega
    rwa [bits] at numeral

/-- A hexadecimal digit in either case is read to its value. -/
theorem hexValue?_of_isDigit {c : Char} {value : ℕ} (hc : IsDigit 16 c value) :
    hexValue? c = some value := by
  have order (a b : Char) : a ≤ b ↔ a.toNat ≤ b.toNat := Iff.rfl
  have codes : ('0'.toNat = 48 ∧ '9'.toNat = 57) ∧ ('a'.toNat = 97 ∧ 'f'.toNat = 102) ∧
      'A'.toNat = 65 ∧ 'F'.toNat = 70 := by decide
  obtain ⟨⟨h0, h9⟩, ⟨ha, hf⟩, hA, hF⟩ := codes
  rw [isDigit_iff (by decide)] at hc
  simp only [hexValue?, order, h0, h9, ha, hf, hA, hF]
  split_ifs
  · exact congrArg some (by omega)
  · exact congrArg some (by omega)
  · exact congrArg some (by omega)
  · omega

/-- A hexadecimal digit takes one byte. -/
theorem utf8Size_of_isDigit {c : Char} {value : ℕ} (hc : IsDigit 16 c value) :
    c.utf8Size = 1 := by
  rw [isDigit_iff (by decide)] at hc
  have hcode : c.toNat ≤ 0x7F := by omega
  exact if_pos hcode

/-- The four digits of a code unit one by one. -/
theorem CodeUnit.exists_digits (code : CodeUnit) :
    ∃ a b c d w x y z, code.digits = [a, b, c, d] ∧ IsDigit 16 a w ∧ IsDigit 16 b x ∧
      IsDigit 16 c y ∧ IsDigit 16 d z ∧ code.number = ((w * 16 + x) * 16 + y) * 16 + z := by
  obtain ⟨values, hvalues, hnumber⟩ := code.numeral.values
  obtain ⟨a, b, c, d, hdigits⟩ := List.length_eq_four.mp code.length
  rw [hdigits] at hvalues
  obtain _ | ⟨ha, _ | ⟨hb, _ | ⟨hc, _ | ⟨hd, _ | _⟩⟩⟩⟩ := hvalues
  refine ⟨a, b, c, d, _, _, _, _, hdigits, ha, hb, hc, hd, hnumber.trans ?_⟩
  simp only [List.reverse_cons, List.reverse_nil, List.nil_append, List.cons_append,
    Nat.ofDigits_cons, Nat.ofDigits_nil]
  ring

/-- A code unit has sixteen bits. -/
theorem CodeUnit.number_lt (code : CodeUnit) : code.number < 0x10000 := by
  obtain ⟨a, b, c, d, w, x, y, z, -, ha, hb, hc, hd, hnumber⟩ := code.exists_digits
  have hw := ha.lt
  have hx := hb.lt
  have hy := hc.lt
  have hz := hd.lt
  omega

/-- A code unit is read from its digits. -/
theorem readCodeUnit_digits (code : CodeUnit) (rest : List Char) :
    readCodeUnit (code.digits ++ rest) = .ok (code.number, rest) := by
  obtain ⟨a, b, c, d, w, x, y, z, hdigits, ha, hb, hc, hd, hnumber⟩ := code.exists_digits
  have hbytes : Text.byteLength ((code.digits ++ rest).take 4) = 4 := by
    rw [List.take_left' code.length, hdigits]
    simp only [Text.byteLength, utf8Size_of_isDigit ha, utf8Size_of_isDigit hb,
      utf8Size_of_isDigit hc, utf8Size_of_isDigit hd]
  have hquad : hexQuad? a b c d = some code.number := by
    simp only [hexQuad?, hexValue?_of_isDigit ha, hexValue?_of_isDigit hb, hexValue?_of_isDigit hc,
      hexValue?_of_isDigit hd, hnumber]
  have hlong : ¬ 4 < 4 := by decide
  simp only [readCodeUnit, hbytes, hlong, if_false]
  simp only [hdigits, List.cons_append, List.nil_append, hquad]

/-- No character is a surrogate. -/
theorem toNat_not_surrogate (c : Char) : c.toNat < 0xD800 ∨ 0xDFFF < c.toNat ∧ c.toNat < 0x110000 :=
  c.valid

/-- A number that is no surrogate is the number of its character. -/
theorem toNat_ofNat_of_not_surrogate {number : ℕ}
    (hn : number < 0xD800 ∨ 0xDFFF < number ∧ number < 0x110000) :
    (Char.ofNat number).toNat = number := by
  rw [Char.ofNat, dif_pos hn]
  rfl

/-- The first surrogates by their numbers. -/
theorem isLeading_iff {number : ℕ} :
    isLeading number = true ↔ 0xD800 ≤ number ∧ number < 0xDC00 := by
  simp only [isLeading, Bool.and_eq_true, decide_eq_true_eq]

/-- The second surrogates by their numbers. -/
theorem isTrailing_iff {number : ℕ} :
    isTrailing number = true ↔ 0xDC00 ≤ number ∧ number < 0xE000 := by
  simp only [isTrailing, Bool.and_eq_true, decide_eq_true_eq]

/-- Two code units are the surrogates of a character outside the basic plane. -/
structure IsPair (c : Char) (leading trailing : ℕ) : Prop where
  /-- The character lies outside the basic plane. -/
  beyond : 0x10000 ≤ c.toNat
  /-- The first code unit holds the upper ten bits. -/
  leading : leading = 0xD800 + (c.toNat - 0x10000) / 0x400
  /-- The second code unit holds the lower ten bits. -/
  trailing : trailing = 0xDC00 + (c.toNat - 0x10000) % 0x400

/-- The surrogates of a character are the two code units that it is put together
from. -/
theorem isPair_iff {c : Char} {leading trailing : ℕ} :
    IsPair c leading trailing ↔
      isLeading leading = true ∧ isTrailing trailing = true ∧ c = pairedChar leading trailing := by
  rw [isLeading_iff, isTrailing_iff]
  constructor
  · rintro ⟨hbeyond, hl, ht⟩
    have hc := toNat_not_surrogate c
    refine ⟨by omega, by omega, ?_⟩
    rw [pairedChar, show (leading - 0xD800) * 0x400 + (trailing - 0xDC00) + 0x10000 = c.toNat by
      omega, Char.ofNat_toNat]
  · rintro ⟨hl, ht, hc⟩
    have hnumber : c.toNat = (leading - 0xD800) * 0x400 + (trailing - 0xDC00) + 0x10000 := by
      rw [hc, pairedChar]
      exact toNat_ofNat_of_not_surrogate (by omega)
    exact ⟨by omega, by omega, by omega⟩

/-- A first surrogate is not the number of a character. -/
theorem ne_toNat_of_isLeading {number : ℕ} (hl : isLeading number = true) (c : Char) :
    number ≠ c.toNat := by
  rw [isLeading_iff] at hl
  have hc := toNat_not_surrogate c
  omega

/-- While skipping, any code unit is a character. -/
theorem readUnicode_false (code : CodeUnit) (text : List Char) :
    readUnicode false (code.digits ++ text) = .ok (Char.ofNat code.number, text) := by
  simp only [readUnicode, readCodeUnit_digits, Bool.not_false, if_true]

/-- A code unit that is no surrogate is read as its character. -/
theorem readUnicode_true {code : CodeUnit} (hl : isLeading code.number = false)
    (ht : isTrailing code.number = false) (text : List Char) :
    readUnicode true (code.digits ++ text) = .ok (Char.ofNat code.number, text) := by
  simp only [readUnicode, readCodeUnit_digits, Bool.not_true, Bool.false_eq_true, if_false, hl, ht]

/-- A second surrogate cannot come first. -/
theorem readUnicode_trailing {code : CodeUnit} (ht : isTrailing code.number = true)
    (text : List Char) : ∃ fault, readUnicode true (code.digits ++ text) = .error fault := by
  simp only [readUnicode, readCodeUnit_digits, Bool.not_true, Bool.false_eq_true, if_false, ht,
    if_true, Except.error.injEq, exists_eq']

/-- Behind a first surrogate the second one is read. -/
theorem readUnicode_leading {code : CodeUnit} (hl : isLeading code.number = true)
    (text : List Char) :
    readUnicode true (code.digits ++ text) = readTrailing code.number text := by
  have ht : isTrailing code.number = false := by
    rw [isLeading_iff] at hl
    rw [← Bool.not_eq_true, isTrailing_iff]
    omega
  simp only [readUnicode, readCodeUnit_digits, Bool.not_true, Bool.false_eq_true, if_false, ht, hl,
    if_true]

/-- A second surrogate is read behind the first one. -/
theorem readTrailing_unit (leading : ℕ) {code : CodeUnit} (ht : isTrailing code.number = true)
    (text : List Char) :
    readTrailing leading ('\\' :: 'u' :: (code.digits ++ text)) =
      .ok (pairedChar leading code.number, text) := by
  simp only [readTrailing, readCodeUnit_digits, ht, if_true]

/-! ## Pieces and what they spell -/

/-- The letters of the short escapes, and the characters they stand for. -/
def shortEscapes : List (Char × Char) :=
  [('"', '"'), ('\\', '\\'), ('/', '/'), ('b', '\x08'), ('f', '\x0c'), ('n', '\n'), ('r', '\r'),
    ('t', '\t')]

/-- The letter of a short escape is read to its character. -/
theorem shortEscape?_of_mem {letter c : Char} (hm : (letter, c) ∈ shortEscapes) :
    shortEscape? letter = some c ∧ letter ≠ 'u' := by
  have table : ∀ entry ∈ shortEscapes, shortEscape? entry.1 = some entry.2 ∧ entry.1 ≠ 'u' := by
    decide
  exact table _ hm

/-- A piece of a text in quotes. -/
inductive Piece where
  /-- A character that stands for itself, neither a control character nor a quote nor a
  backslash. -/
  | plain (c : Char) (valid : 0x20 ≤ c.toNat ∧ c ≠ '"' ∧ c ≠ '\\')
  /-- A backslash and a letter. -/
  | short (letter c : Char) (valid : (letter, c) ∈ shortEscapes)
  /-- The escape of a code unit. -/
  | unit (code : CodeUnit)

/-- A piece as it stands in the text. -/
def Piece.text : Piece → List Char
  | plain c _ => [c]
  | short letter _ _ => ['\\', letter]
  | unit code => '\\' :: 'u' :: code.digits

/-- Pieces as they stand in the text. -/
def unquoted (pieces : List Piece) : List Char := pieces.flatMap Piece.text

/-- The first piece comes first. -/
theorem unquoted_cons (piece : Piece) (pieces : List Piece) :
    unquoted (piece :: pieces) = piece.text ++ unquoted pieces := rfl

/-- The escape of a code unit comes first. -/
theorem unquoted_unit_append (code : CodeUnit) (pieces : List Piece) (text : List Char) :
    unquoted (.unit code :: pieces) ++ text =
      '\\' :: 'u' :: (code.digits ++ (unquoted pieces ++ text)) := by
  rw [unquoted_cons, Piece.text, List.append_assoc, List.cons_append, List.cons_append]

/-- Pieces spell a text. -/
inductive Spells : List Char → List Piece → Prop where
  /-- No pieces spell the empty text. -/
  | nil : Spells [] []
  /-- A character that stands for itself. -/
  | plain {c : Char} {content : List Char} {pieces : List Piece}
      (valid : 0x20 ≤ c.toNat ∧ c ≠ '"' ∧ c ≠ '\\') (more : Spells content pieces) :
      Spells (c :: content) (.plain c valid :: pieces)
  /-- A character by its short escape. -/
  | short {letter c : Char} {content : List Char} {pieces : List Piece}
      (valid : (letter, c) ∈ shortEscapes) (more : Spells content pieces) :
      Spells (c :: content) (.short letter c valid :: pieces)
  /-- A character of the basic plane by its code unit. -/
  | unit {c : Char} {code : CodeUnit} {content : List Char} {pieces : List Piece}
      (number : code.number = c.toNat) (more : Spells content pieces) :
      Spells (c :: content) (.unit code :: pieces)
  /-- A character outside the basic plane by its surrogates. -/
  | pair {c : Char} {first second : CodeUnit} {content : List Char} {pieces : List Piece}
      (numbers : IsPair c first.number second.number) (more : Spells content pieces) :
      Spells (c :: content) (.unit first :: .unit second :: pieces)

/-- A text is spelled by its own characters if all of them may stand for
themselves. -/
theorem spells_plain (content : List Char)
    (hc : ∀ c ∈ content, 0x20 ≤ c.toNat ∧ c ≠ '"' ∧ c ≠ '\\') :
    Spells content (content.pmap Piece.plain hc) := by
  induction content with
  | nil => exact .nil
  | cons c content ih => exact .plain _ (ih _)

/-! ## What a run of pieces spells, by its first piece -/

/-- A character that stands for itself is the first one. -/
theorem spells_plain_iff {c : Char} {valid : 0x20 ≤ c.toNat ∧ c ≠ '"' ∧ c ≠ '\\'}
    {content : List Char} {pieces : List Piece} :
    Spells content (.plain c valid :: pieces) ↔
      ∃ more, content = c :: more ∧ Spells more pieces := by
  constructor
  · intro hs
    cases hs with
    | plain valid more => exact ⟨_, rfl, more⟩
  · rintro ⟨more, rfl, hs⟩
    exact .plain valid hs

/-- The character of a short escape is the first one. -/
theorem spells_short_iff {letter c : Char} {valid : (letter, c) ∈ shortEscapes}
    {content : List Char} {pieces : List Piece} :
    Spells content (.short letter c valid :: pieces) ↔
      ∃ more, content = c :: more ∧ Spells more pieces := by
  constructor
  · intro hs
    cases hs with
    | short valid more => exact ⟨_, rfl, more⟩
  · rintro ⟨more, rfl, hs⟩
    exact .short valid hs

/-- The character of a code unit that is no surrogate is the first one. -/
theorem spells_unit_iff {code : CodeUnit} (hl : isLeading code.number = false)
    (ht : isTrailing code.number = false) {content : List Char} {pieces : List Piece} :
    Spells content (.unit code :: pieces) ↔
      ∃ more, content = Char.ofNat code.number :: more ∧ Spells more pieces := by
  have hcode := code.number_lt
  rw [← Bool.not_eq_true, isLeading_iff] at hl
  rw [← Bool.not_eq_true, isTrailing_iff] at ht
  constructor
  · intro hs
    cases hs with
    | unit number more => exact ⟨_, by rw [number, Char.ofNat_toNat], more⟩
    | pair numbers more => exact absurd (isLeading_iff.mp (isPair_iff.mp numbers).1) hl
  · rintro ⟨more, rfl, hs⟩
    exact .unit (toNat_ofNat_of_not_surrogate (by omega)).symm hs

/-- Nothing is spelled by pieces that begin with a second surrogate. -/
theorem not_spells_of_isTrailing {code : CodeUnit} (ht : isTrailing code.number = true)
    {content : List Char} {pieces : List Piece} : ¬ Spells content (.unit code :: pieces) := by
  rw [isTrailing_iff] at ht
  intro hs
  cases hs with
  | @unit c _ _ _ number more =>
    have hc := toNat_not_surrogate c
    omega
  | pair numbers more =>
    have hleading := isLeading_iff.mp (isPair_iff.mp numbers).1
    omega

/-- The character of two surrogates is the first one. -/
theorem spells_pair_iff {first second : CodeUnit} (hl : isLeading first.number = true)
    (ht : isTrailing second.number = true) {content : List Char} {pieces : List Piece} :
    Spells content (.unit first :: .unit second :: pieces) ↔
      ∃ more, content = pairedChar first.number second.number :: more ∧ Spells more pieces := by
  constructor
  · intro hs
    cases hs with
    | unit number more => exact absurd number (ne_toNat_of_isLeading hl _)
    | pair numbers more => exact ⟨_, congrArg (· :: _) (isPair_iff.mp numbers).2.2, more⟩
  · rintro ⟨more, hc, hs⟩
    rw [hc]
    exact .pair (isPair_iff.mpr ⟨hl, ht, rfl⟩) hs

/-- Nothing is spelled by pieces that begin with a first surrogate and do not go
on with a second one. -/
theorem not_spells_of_isLeading {code : CodeUnit} (hl : isLeading code.number = true)
    {pieces : List Piece} (hp : ∀ second others, pieces = .unit second :: others →
      isTrailing second.number = false) {content : List Char} :
    ¬ Spells content (.unit code :: pieces) := by
  intro hs
  cases hs with
  | unit number more => exact absurd number (ne_toNat_of_isLeading hl _)
  | pair numbers more =>
    have ht := (isPair_iff.mp numbers).2.1
    rw [hp _ _ rfl] at ht
    exact Bool.false_ne_true ht

/-! ## Reading pieces -/

/-- A short escape is read. -/
theorem readChars_short (strict : Bool) (limit : ℕ) (done : List Char) {letter c : Char}
    (valid : (letter, c) ∈ shortEscapes) (text : List Char) :
    readChars strict (limit + 1) done ('\\' :: letter :: text) =
      readChars strict limit (c :: done) text := by
  obtain ⟨hescape, hu⟩ := shortEscape?_of_mem valid
  rw [readChars_escape, readEscape_short strict hescape hu]

/-- The escape of a code unit is read if its character is. -/
theorem readChars_unit {strict : Bool} (limit : ℕ) (done : List Char) {code : CodeUnit} {c : Char}
    {text rest : List Char} (hread : readUnicode strict (code.digits ++ text) = .ok (c, rest)) :
    readChars strict (limit + 1) done ('\\' :: 'u' :: (code.digits ++ text)) =
      readChars strict limit (c :: done) rest := by
  rw [readChars_escape, readEscape_unit, hread]

/-- The fault of a code unit is the fault of the text. -/
theorem readChars_unit_error {strict : Bool} (limit : ℕ) (done : List Char) {code : CodeUnit}
    {text : List Char} {fault : Fault}
    (hread : readUnicode strict (code.digits ++ text) = .error fault) :
    readChars strict (limit + 1) done ('\\' :: 'u' :: (code.digits ++ text)) = .error fault := by
  rw [readChars_escape, readEscape_unit, hread]

/-- Nothing but a second surrogate is taken behind a first one. -/
theorem readTrailing_other (leading : ℕ) {pieces : List Piece} (rest : List Char)
    (hp : ∀ second others, pieces = .unit second :: others → isTrailing second.number = false) :
    ∃ fault, readTrailing leading (unquoted pieces ++ '"' :: rest) = .error fault := by
  cases pieces with
  | nil => exact ⟨_, rfl⟩
  | cons piece pieces =>
    rw [unquoted_cons, List.append_assoc]
    cases piece with
    | plain c valid =>
      exact ⟨_, readTrailing_cons leading valid.2.2 _⟩
    | short letter c valid =>
      exact ⟨_, readTrailing_backslash leading (shortEscape?_of_mem valid).2 _⟩
    | unit second =>
      have ht := hp second pieces rfl
      simp only [Piece.text, List.cons_append, readTrailing, readCodeUnit_digits, ht,
        Bool.false_eq_true, if_false, Except.error.injEq, exists_eq']

/-! ## Reading whole texts -/

/-- A run of pieces is read exactly to the texts that it spells, behind the characters
that were read before. -/
def ReadsPieces (limit : ℕ) (pieces : List Piece) (rest : List Char) : Prop :=
  ∀ done content after,
    readChars true limit done (unquoted pieces ++ '"' :: rest) = .ok (content, after) ↔
      (∃ read, Spells read pieces ∧ content = done.reverse ++ read) ∧ after = rest

section
variable {limit : ℕ} {pieces longer : List Piece} {rest : List Char}

/-- The closing quote is read behind the last piece. -/
theorem readsPieces_nil (limit : ℕ) (rest : List Char) : ReadsPieces (limit + 1) [] rest := by
  intro done content after
  rw [unquoted, List.flatMap_nil, List.nil_append, readChars_quote, Except.ok.injEq,
    Prod.mk.injEq]
  constructor
  · rintro ⟨rfl, rfl⟩
    exact ⟨⟨[], .nil, (List.append_nil _).symm⟩, rfl⟩
  · rintro ⟨⟨read, hs, rfl⟩, rfl⟩
    cases hs
    exact ⟨(List.append_nil _).symm, rfl⟩

/-- A longer run is read if its first character is, and the pieces behind it are. -/
theorem ReadsPieces.step (hmore : ReadsPieces limit pieces rest) {c : Char}
    (hread : ∀ done, readChars true (limit + 1) done (unquoted longer ++ '"' :: rest) =
      readChars true limit (c :: done) (unquoted pieces ++ '"' :: rest))
    (hspells : ∀ {content}, Spells content longer ↔
      ∃ more, content = c :: more ∧ Spells more pieces) :
    ReadsPieces (limit + 1) longer rest := by
  intro done content after
  rw [hread, hmore]
  refine and_congr_left' ⟨?_, ?_⟩
  · rintro ⟨more, hs, rfl⟩
    refine ⟨c :: more, hspells.mpr ⟨more, rfl, hs⟩, ?_⟩
    rw [List.reverse_cons, List.append_assoc, List.singleton_append]
  · rintro ⟨read, hs, rfl⟩
    obtain ⟨more, rfl, hbehind⟩ := hspells.mp hs
    refine ⟨more, hbehind, ?_⟩
    rw [List.reverse_cons, List.append_assoc, List.singleton_append]

/-- A run that spells nothing is read if that is a fault. -/
theorem readsPieces_of_error
    (hread : ∀ done, ∃ fault,
      readChars true limit done (unquoted longer ++ '"' :: rest) = .error fault)
    (hspells : ∀ {content}, ¬ Spells content longer) : ReadsPieces limit longer rest := by
  intro done content after
  obtain ⟨fault, hfault⟩ := hread done
  rw [hfault]
  simp only [reduceCtorEq, hspells, false_and, exists_false]

/-- The escape of a code unit is read, together with that of a second surrogate
where it is a first one. -/
theorem readsPieces_unit (code : CodeUnit) (hl : pieces.length < limit)
    (ih : ∀ {pieces : List Piece}, pieces.length < limit → ReadsPieces limit pieces rest) :
    ReadsPieces (limit + 1) (.unit code :: pieces) rest := by
  by_cases ht : isTrailing code.number = true
  · obtain ⟨fault, hread⟩ := readUnicode_trailing ht (unquoted pieces ++ '"' :: rest)
    refine readsPieces_of_error (fun done => ⟨fault, ?_⟩) (not_spells_of_isTrailing ht)
    rw [unquoted_unit_append, readChars_unit_error limit done hread]
  rw [Bool.not_eq_true] at ht
  by_cases hleading : isLeading code.number = true
  · have hread := readUnicode_leading hleading (unquoted pieces ++ '"' :: rest)
    by_cases hp : ∀ second others, pieces = .unit second :: others →
        isTrailing second.number = false
    · obtain ⟨fault, hfault⟩ := readTrailing_other code.number rest hp
      rw [hfault] at hread
      refine readsPieces_of_error (fun done => ⟨fault, ?_⟩) (not_spells_of_isLeading hleading hp)
      rw [unquoted_unit_append, readChars_unit_error limit done hread]
    · push Not at hp
      obtain ⟨second, others, rfl, hsecond⟩ := hp
      rw [ne_eq, Bool.not_eq_false] at hsecond
      rw [unquoted_unit_append, readTrailing_unit _ hsecond, ← unquoted_unit_append] at hread
      refine (ih (Nat.lt_of_succ_lt hl)).step (fun done => ?_) (spells_pair_iff hleading hsecond)
      rw [unquoted_unit_append, readChars_unit limit done hread]
  · rw [Bool.not_eq_true] at hleading
    have hread := readUnicode_true hleading ht (unquoted pieces ++ '"' :: rest)
    refine (ih hl).step (fun done => ?_) (spells_unit_iff hleading ht)
    rw [unquoted_unit_append, readChars_unit limit done hread]

/-- With one step for every piece and one for the quote, every run of pieces is
read. -/
theorem readsPieces (hl : pieces.length < limit) : ReadsPieces limit pieces rest := by
  induction limit generalizing pieces with
  | zero => exact absurd hl (Nat.not_lt_zero _)
  | succ limit ih =>
    cases pieces with
    | nil => exact readsPieces_nil limit rest
    | cons piece pieces =>
      have hshort : pieces.length < limit := Nat.lt_of_succ_lt_succ hl
      cases piece with
      | plain c valid =>
        refine (ih hshort).step (fun done => ?_) spells_plain_iff
        rw [unquoted_cons, Piece.text, List.append_assoc, List.singleton_append,
          readChars_plain _ _ _ valid]
      | short letter c valid =>
        refine (ih hshort).step (fun done => ?_) spells_short_iff
        rw [unquoted_cons, Piece.text, List.append_assoc, List.cons_append, List.singleton_append,
          readChars_short _ _ _ valid]
      | unit code => exact readsPieces_unit code hshort ih

end

/-- There are no more pieces than characters they stand in the text as. -/
theorem length_le_length_unquoted (pieces : List Piece) :
    pieces.length ≤ (unquoted pieces).length := by
  induction pieces with
  | nil => exact Nat.zero_le _
  | cons piece pieces ih =>
    have hpiece : 0 < piece.text.length := by
      cases piece <;> exact Nat.succ_pos _
    rw [unquoted_cons, List.length_append, List.length_cons]
    omega

/-- A text in quotes is read exactly to what its pieces spell. -/
theorem readQuoted_eq_ok_iff {content rest after : List Char} {pieces : List Piece} :
    readQuoted true (unquoted pieces ++ '"' :: rest) = .ok (content, after) ↔
      Spells content pieces ∧ after = rest := by
  have hl := length_le_length_unquoted pieces
  have hlimit : pieces.length < (unquoted pieces ++ '"' :: rest).length := by
    rw [List.length_append, List.length_cons]
    omega
  rw [readQuoted, readsPieces hlimit]
  simp only [List.reverse_nil, List.nil_append, exists_eq_right']

/-- Pieces spell at most one text. -/
theorem Spells.unique {left right : List Char} {pieces : List Piece} (hl : Spells left pieces)
    (hr : Spells right pieces) : left = right := by
  have read {content : List Char} (hs : Spells content pieces) :
      readQuoted true (unquoted pieces ++ ['"']) = .ok (content, []) :=
    readQuoted_eq_ok_iff.mpr ⟨hs, rfl⟩
  have same := (read hl).symm.trans (read hr)
  exact (Prod.mk.inj (Except.ok.inj same)).1

/-- Any run of pieces is passed over while skipping. -/
theorem readChars_false {limit : ℕ} {pieces : List Piece} (hl : pieces.length < limit)
    (done rest : List Char) :
    ∃ content, readChars false limit done (unquoted pieces ++ '"' :: rest) =
      .ok (content, rest) := by
  induction pieces generalizing limit done with
  | nil =>
    obtain ⟨limit, rfl⟩ := Nat.exists_eq_succ_of_ne_zero (Nat.ne_of_gt hl)
    exact ⟨done.reverse, readChars_quote false limit done rest⟩
  | cons piece pieces ih =>
    rw [List.length_cons] at hl
    obtain ⟨limit, rfl⟩ := Nat.exists_eq_succ_of_ne_zero (Nat.ne_of_gt (Nat.zero_lt_of_lt hl))
    have more (c : Char) := ih (Nat.lt_of_succ_lt_succ hl) (c :: done)
    cases piece with
    | plain c valid =>
      rw [unquoted_cons, Piece.text, List.append_assoc, List.singleton_append,
        readChars_plain _ _ _ valid]
      exact more c
    | short letter c valid =>
      rw [unquoted_cons, Piece.text, List.append_assoc, List.cons_append, List.singleton_append,
        readChars_short _ _ _ valid]
      exact more c
    | unit code =>
      rw [unquoted_unit_append, readChars_unit limit done (readUnicode_false code _)]
      exact more _

/-- A text in quotes is passed over while skipping, whatever its pieces are. -/
theorem readQuoted_false (pieces : List Piece) (rest : List Char) :
    ∃ content, readQuoted false (unquoted pieces ++ '"' :: rest) = .ok (content, rest) := by
  have hl := length_le_length_unquoted pieces
  exact readChars_false (by rw [List.length_append, List.length_cons]; omega) [] rest

end HeaderExports.Json
