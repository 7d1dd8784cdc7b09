import HeaderExports.Proofs.Extraction.Members
import HeaderExports.Proofs.Grammar.Preferred
import HeaderExports.Proofs.Layout.CommaLists

/-!
# Enumerations in any layout

The members of an enumeration are read in order whatever stands between their
tokens. On one line tabs and line ends are gone and runs of spaces are shorter,
but a name is told from what follows by an equals sign or a comma, and a sign
is joined to its word in the end.
-/

namespace HeaderExports

open Grammar Pattern
open Text

variable {comments : Bool}

/-- The initializer of a member. -/
structure LaidInitializer (comments : Bool) where
  /-- What stands behind the equals sign. -/
  gap : Layout comments
  /-- What stands behind the sign, if one is written. -/
  sign : Option (Layout comments)
  /-- The word. -/
  word : Name
  /-- What stands behind the word. -/
  behind : Layout comments

namespace LaidInitializer

/-- An equals sign as a token. -/
def equals : Token isSolid := .ofAll ['='] (by decide)

/-- A minus as a token. -/
def minus : Token isSolid := .ofAll ['-'] (by decide)

/-- The tokens of an initializer with their layout. -/
def pieces (initializer : LaidInitializer comments) : List (Piece comments) :=
  ⟨equals, initializer.gap⟩ ::
    (initializer.sign.toList.map (⟨minus, ·⟩) ++ [⟨initializer.word.solid, initializer.behind⟩])

/-- The value on one line. -/
def value (initializer : LaidInitializer comments) : SignedValue where
  negative := initializer.sign.isSome
  gap := initializer.sign.elim noGap Layout.blanks
  word := initializer.word

/-- The value as it is stored, with the sign at its word. -/
def leaf (initializer : LaidInitializer comments) : List Char :=
  signText initializer.sign.isSome ++ initializer.word.chars

/-- On one line an initializer is an equals sign with a value behind it. -/
theorem written_pieces (initializer : LaidInitializer comments) :
    written Layout.short initializer.pieces =
      "=".toList ++ (initializer.gap.short ++ initializer.value.chars) ++
        initializer.behind.short := by
  obtain ⟨gap, sign, word, behind⟩ := initializer
  cases sign with
  | none => simp [pieces, written, value, SignedValue.chars, signText, equals]
  | some sign =>
    simp [pieces, written, value, SignedValue.chars, signText, equals, minus, Layout.blanks]

end LaidInitializer

/-- A member of an enumeration. -/
structure LaidMember (comments : Bool) where
  /-- The name. -/
  name : Name
  /-- What stands behind the name. -/
  gap : Layout comments
  /-- The initializer, if one is written. -/
  initializer : Option (LaidInitializer comments)

namespace LaidMember

/-- The tokens of a member with their layout. -/
def pieces (member : LaidMember comments) : List (Piece comments) :=
  ⟨member.name.solid, member.gap⟩ :: member.initializer.elim [] LaidInitializer.pieces

/-- The member that is declared. -/
def leaves (member : LaidMember comments) : Enumerator :=
  ⟨String.ofList member.name.chars,
    String.ofList (member.initializer.elim [] LaidInitializer.leaf)⟩

/-- The member on one line. -/
def form (member : LaidMember comments) : EnumeratorForm where
  name := member.name
  gap := member.gap.blanks
  value := member.initializer.map fun initializer => (initializer.gap.blanks, initializer.value)

/-- The member on one line declares the same. -/
theorem leaves_form (member : LaidMember comments) : member.form.leaves = member.leaves := by
  obtain ⟨name, gap, _ | initializer⟩ := member <;> rfl

/-- A member is read in front of a comma and at the end of its body. -/
theorem readings_append (member : LaidMember comments) {rest : List Char}
    (hr : ∀ c ∈ rest.head?, c = ',') :
    enumeratorPattern.readings (written Layout.short member.pieces ++ rest) =
      member.form.parts :: enumeratorPattern.readings rest := by
  have hn := not_spells_enumerator.1
  obtain ⟨name, gap, _ | initializer⟩ := member
  · have hend : ∀ c ∈ rest.head?, isWord c = false ∧ isBlank c = false ∧ c ≠ '=' := by
      intro c hc
      rw [hr c hc]
      decide
    have hread := prefers_bareEnumerator name gap.blanks hend
    have htext : written Layout.short (pieces ⟨name, gap, none⟩) = name.chars ++ gap.short := by
      simp [pieces, written]
    rw [htext]
    exact readings_append_of_first? hn hread.first?_eq
  · have hend : ∀ c ∈ (initializer.behind.short ++ rest).head?, isWord c = false :=
      not_isWord_of_mem_head initializer.behind.blanks fun c hc => by rw [hr c hc]; decide
    have hsign : initializer.value.negative = false → initializer.value.gap.chars = [] := by
      obtain ⟨_, _ | sign, _, _⟩ := initializer
      · exact fun _ => rfl
      · exact fun h => Bool.noConfusion h
    have hread := prefers_valuedEnumerator name gap.blanks initializer.gap.blanks initializer.value
      hsign hend
    have htext : written Layout.short (pieces ⟨name, gap, some initializer⟩) ++ rest =
        EnumeratorForm.text ⟨name, gap.blanks, some (initializer.gap.blanks, initializer.value)⟩ ++
          (initializer.behind.short ++ rest) := by
      have hpieces : pieces ⟨name, gap, some initializer⟩ =
          ⟨name.solid, gap⟩ :: initializer.pieces := rfl
      rw [hpieces, written_cons, initializer.written_pieces]
      simp only [EnumeratorForm.text, Option.elim_some, List.append_assoc]
      rfl
    rw [htext, readings_append_of_first? hn hread.first?_eq]
    refine congrArg _ (readings_blanks_append hn (fun c hc => ?_)
      initializer.behind.isBlank_of_mem_short rest)
    exact not_spells_enumerator.2 c (not_isWord_of_isBlank hc).1

/-- The tokens of a member may stand in the body of an enumeration. -/
theorem inEnumBody_of_mem_pieces (member : LaidMember comments) :
    ∀ piece ∈ member.pieces, ∀ c ∈ piece.token.chars, inEnumBody c = true := by
  have hword (n : Name) : ∀ c ∈ n.solid.chars, inEnumBody c = true := fun c hc => by
    have hin : isWord c = true := n.inside_of_mem c hc
    simp [inEnumBody, hin]
  obtain ⟨name, gap, _ | ⟨gap', sign, word, behind⟩⟩ := member
  · exact List.forall_mem_singleton.mpr (hword name)
  · have hequals : ∀ c ∈ LaidInitializer.equals.chars, inEnumBody c = true :=
      List.all_eq_true.mp (by decide)
    have hminus : ∀ c ∈ LaidInitializer.minus.chars, inEnumBody c = true :=
      List.all_eq_true.mp (by decide)
    refine List.forall_mem_cons.mpr ⟨hword name, List.forall_mem_cons.mpr ⟨hequals, ?_⟩⟩
    cases sign with
    | none => exact List.forall_mem_singleton.mpr (hword word)
    | some sign =>
      exact List.forall_mem_cons.mpr ⟨hminus, List.forall_mem_singleton.mpr (hword word)⟩

end LaidMember

/-- An enumeration with layout between the tokens of its body. -/
structure LaidEnum (comments : Bool) where
  /-- The name. -/
  name : Name
  /-- The members with what stands behind the opening brace. -/
  members : LaidList (LaidMember comments) comments

namespace LaidEnum

/-- The body of the enumeration, its layout written in a given way. -/
def body (write : Layout comments → List Char) (form : LaidEnum comments) : List Char :=
  (form.members.laidText LaidMember.pieces).chars write

/-- The text of the enumeration. -/
def text (form : LaidEnum comments) : List Char :=
  "enum ".toList ++ (form.name.chars ++ (" \x7b".toList ++
    (form.body Layout.text ++ "\x7d;".toList)))

/-- The enumeration that is declared. -/
def leaves (form : LaidEnum comments) : EnumDecl :=
  ⟨String.ofList form.name.chars, form.members.list.items.map LaidMember.leaves⟩

/-- What is seen of the body may stand in the body of an enumeration. -/
theorem inEnumBody_of_mem_body (form : LaidEnum comments) :
    ∀ c ∈ form.body Layout.shown, inEnumBody c = true :=
  LaidList.forall_mem_shown (fun c hc => by simp [inEnumBody, hc]) (by decide)
    LaidMember.inEnumBody_of_mem_pieces form.members

/-- What is seen of the enumeration. -/
def shown (form : LaidEnum comments) (hb : form.body Layout.text ≠ []) : BracedForm inEnumBody where
  name := form.name
  gap := oneSpace.toStretch
  members := ⟨⟨form.body Layout.shown, form.inEnumBody_of_mem_body⟩,
    LaidText.shown_ne_nil hb⟩

variable {marker : ExportMarker} {keepsComments : Bool}

/-- The text of an enumeration is seen as one in braces. -/
theorem visibleText_text (form : LaidEnum (!keepsComments)) (hb : form.body Layout.text ≠ []) :
    (withMarker marker keepsComments).visibleText form.text = (form.shown hb).text "enum " := by
  unfold text
  rw [visibleText_append_of_all (by decide), visibleText_append_of_inert form.name.isInert_of_mem,
    visibleText_append_of_all (by decide), body, LaidText.visibleText_append,
    visibleText_of_inert (List.all_eq_true.mp (by decide))]
  rfl

/-- On one line the body of an enumeration is read as its members. -/
theorem enumerators_body (form : LaidEnum comments) :
    (withMarker marker keepsComments).enumerators (oneLine (form.body Layout.shown)) =
      form.members.list.items.map LaidMember.leaves := by
  have hskip (c : Char) (hc : isBlank c = true ∨ c = ',') (word : List Char) (marks : Marks Part) :
      ¬Spells enumeratorPattern (c :: word) marks := by
    refine not_spells_enumerator.2 c ?_ word marks
    rcases hc with hc | rfl
    · exact (not_isWord_of_isBlank hc).1
    · decide
  have hreadings : enumeratorPattern.readings (oneLine (form.body Layout.shown)) =
      (form.members.list.items.map LaidMember.form).map EnumeratorForm.parts := by
    rw [List.map_map]
    exact readings_laidList not_spells_enumerator.1 hskip
      (fun member rest hr => member.readings_append hr) form.members
  rw [enumerators_of_readings marker keepsComments hreadings, List.map_map]
  exact List.map_congr_left fun member _ => member.leaves_form

/-- An enumeration whose body is not empty is read as the one that is declared,
in any layout. -/
theorem enums_extract_text (marker : ExportMarker) (keepsComments : Bool)
    (form : LaidEnum (!keepsComments)) (hb : form.body Layout.text ≠ []) :
    ((withMarker marker keepsComments).extract (String.ofList form.text)).enums =
      [form.leaves] := by
  have hscan : enumPattern.scan ((form.shown hb).text "enum ") =
      [⟨⟨0, _⟩, (form.shown hb).parts⟩] :=
    pinned_enumPattern.determined.scan_of_spells ((writes_braced "enum ").spells _)
  change (withMarker marker keepsComments).enums
    ((withMarker marker keepsComments).visibleText (String.ofList form.text).toList) = _
  rw [String.toList_ofList, visibleText_text form hb]
  unfold enums
  change (enumPattern.scan ((form.shown hb).text "enum ")).map _ = _
  rw [hscan, List.map_singleton]
  change [(⟨String.ofList (oneLine form.name.chars),
    (withMarker marker keepsComments).enumerators (oneLine (form.body Layout.shown))⟩ :
      EnumDecl)] = _
  rw [oneLine_name, enumerators_body, leaves]

/-- Comments, tabs and line ends between the tokens, and a comma behind the last
member. -/
theorem enums_extract_text_of_comments :
    let form : LaidEnum (!false) :=
      { name := .ofAll "Color".toList (by decide)
        members.lead := [.block rfl " warm, ".toList (by decide), .blank '\t' (by decide)]
        members.list :=
          .cons
            { name := .ofAll "RED".toList (by decide)
              gap := [.blank '\r' (by decide), .blank '\n' (by decide)]
              initializer := some
                { gap := [.blank '\u3000' (by decide)]
                  sign := some [.line rfl " = 2, ".toList (by decide), .blank '\t' (by decide)]
                  word := .ofAll "0x1".toList (by decide)
                  behind := [] } }
            [.blank '\n' (by decide)]
            (.cons ⟨.ofAll "BLUE".toList (by decide), [], none⟩ [.blank ' ' (by decide)] .nil) }
    let header := "enum Color \x7b/* warm, */\tRED\r\n=\u3000-// = 2, \n\t0x1,\nBLUE, \x7d;"
    String.ofList form.text = header ∧ form.body Layout.text ≠ [] ∧
      ((withMarker .standard false).extract header).enums =
        [⟨"Color", [⟨"RED", "-0x1"⟩, ⟨"BLUE", ""⟩]⟩] := by
  intro form header
  have htext : String.ofList form.text = header := by decide +kernel
  have hb : form.body Layout.text ≠ [] := by decide +kernel
  have hleaves : [form.leaves] = [⟨"Color", [⟨"RED", "-0x1"⟩, ⟨"BLUE", ""⟩]⟩] := by decide +kernel
  have hread := enums_extract_text .standard false form hb
  exact ⟨htext, hb, (congrArg (fun header => ((withMarker .standard false).extract header).enums)
    htext.symm).trans (hread.trans hleaves)⟩

end LaidEnum

end HeaderExports
