import HeaderExports.Proofs.Canonical.Readings
import HeaderExports.Proofs.Extraction.Barrier
import HeaderExports.Proofs.Extraction.Comments
import HeaderExports.Proofs.Extraction.WellFormed

/-!
# Constants are read line by line

No constant reaches over a line end: the constants of a text are those of its
lines, however the lines are broken. On its line a string literal is read as a
whole, whatever it says. The scan for comments keeps it as one lexeme, and the
pattern of constants ends it at the same quote.
-/

namespace HeaderExports.Grammar

open Pattern
open Text (EndsBetween eq_flatMap_intercalate forall_isInert forall_isLineBreaking_iff oneLine
  oneLine_eq_self_iff stripComments stripComments_append stripComments_append_of_inert
  stripComments_lexeme)

section Lines

variable (marker : ExportMarker) (keepsComments : Bool)

/-- Constants on both sides of a line end are read on their own. -/
theorem constants_append_newline (left right : List Char) :
    (withMarker marker keepsComments).constants (left ++ '\n' :: right) =
      (withMarker marker keepsComments).constants left ++
        (withMarker marker keepsComments).constants right :=
  map_scan_of_separates separates_constant_lines Canonical.constant_ne_nil
    (fun _ _ he => by rw [Occurrence.leaf_congr he, Occurrence.leaf_congr he]) left right

/-- The empty text has no constants. -/
theorem constants_nil : (withMarker marker keepsComments).constants [] = [] :=
  congrArg (List.map _) (scan_eq_nil fun _ _ hs hi =>
    Canonical.constant_ne_nil _ (List.infix_nil.mp hi ▸ hs))

/-- The constants of lines joined by line ends are those of the lines. -/
theorem constants_intercalate (lines : List (List Char)) :
    (withMarker marker keepsComments).constants (['\n'].intercalate lines) =
      lines.flatMap (withMarker marker keepsComments).constants :=
  eq_flatMap_intercalate (constants_nil marker keepsComments)
    (constants_append_newline marker keepsComments) lines

/-- What stands behind a text that is empty or ends a line is read on its own. -/
theorem constants_append_of_lineEnd {front : List Char}
    (hf : front = [] ∨ front.getLast? = some '\n') (rest : List Char) :
    (withMarker marker keepsComments).constants (front ++ rest) =
      (withMarker marker keepsComments).constants front ++
        (withMarker marker keepsComments).constants rest := by
  rcases hf with rfl | hlast
  · rw [constants_nil, List.nil_append, List.nil_append]
  · obtain ⟨init, rfl⟩ := List.getLast?_eq_some_iff.mp hlast
    rw [List.append_assoc, List.singleton_append, constants_append_newline,
      constants_append_newline, constants_nil, List.append_nil]

/-- A line with a constant has that constant. -/
theorem constants_form (form : ConstantForm) :
    (withMarker marker keepsComments).constants form.text =
      [⟨String.ofList (oneLine form.name.chars), String.ofList (oneLine form.value.chars)⟩] := by
  have hprefers : Prefers constantPattern form.text form.parts [] :=
    prefers_constantForm form fun c hc => by cases hc
  have hread := hprefers.first?_eq
  have hreadings := readings_append_of_first? Canonical.constant_ne_nil hread
  rw [List.append_nil, readings_nil Canonical.constant_ne_nil] at hreadings
  unfold constants
  rw [map_scan_eq fun found found' he => by
    rw [Occurrence.leaf_congr he, Occurrence.leaf_congr he]]
  change (constantPattern.readings form.text).map _ = _
  rw [hreadings]
  rfl

end Lines

/-- Constants are read line by line: those of a text are those of its lines, one
line after the other. So whatever stands on the lines around it, a line has the
constants that it has alone. -/
theorem constants_lines (marker : ExportMarker) (keepsComments : Bool) :
    let grammar := withMarker marker keepsComments
    (∀ text : List Char, grammar.constants text = (text.splitOn '\n').flatMap grammar.constants) ∧
      ∀ before line after : List Char,
        grammar.constants (before ++ '\n' :: (line ++ '\n' :: after)) =
          grammar.constants before ++ (grammar.constants line ++ grammar.constants after) := by
  refine ⟨fun text => ?_, fun before line after => ?_⟩
  · rw [← constants_intercalate, List.intercalate_splitOn]
  · rw [constants_append_newline, constants_append_newline]

/-! ## String literals -/

/-- The scan for comments keeps a string literal and what stands in front of it
on its line. -/
theorem stripComments_literal (name : Name) (gap : Token inConstantGap) (chars : List LiteralChar)
    (rest : List Char) :
    stripComments ((ConstantForm.mk name gap (.literal chars)).text ++ '\n' :: rest) =
      (ConstantForm.mk name gap (.literal chars)).text ++ '\n' :: stripComments rest := by
  have hfree {c : Char} (hd : c ∉ "#define ".toList) (hw : Text.isWord c = false)
      (hg : inConstantGap c = false) : c ∉ "#define ".toList ++ (name.chars ++ gap.chars) :=
    List.not_mem_append hd (List.not_mem_append (name.not_mem hw) (gap.not_mem hg))
  have hinert := forall_isInert (hfree (by decide) (by decide) (by decide))
    (hfree (by decide) (by decide) (by decide)) (hfree (by decide) (by decide) (by decide))
  have hnewline : stripComments (['\n'] ++ rest) = ['\n'] ++ stripComments rest :=
    stripComments_append_of_inert (List.forall_mem_singleton.mpr rfl) rest
  have hliteral := stripComments_lexeme (fits_literalLexeme chars ('\n' :: rest))
  have htext (rest : List Char) : (ConstantForm.mk name gap (.literal chars)).text ++ rest =
      ("#define ".toList ++ (name.chars ++ gap.chars)) ++ ((literalLexeme chars).text ++ rest) := by
    unfold ConstantForm.text
    generalize "#define ".toList = directive
    simp only [List.append_assoc]
    rfl
  rw [List.singleton_append, List.singleton_append] at hnewline
  rw [htext, htext, stripComments_append_of_inert hinert, hliteral, hnewline]
  rfl

/-- A line with a string literal has one constant, between those of what stands in
front of the line and of what stands behind it. -/
theorem constants_stripComments_literal (marker : ExportMarker) {front : List Char}
    (hline : front = [] ∨ front.getLast? = some '\n') (hfront : EndsBetween front) (name : Name)
    (gap : Token inConstantGap) (chars : List LiteralChar) (rest : List Char) :
    let constants (text : List Char) := (withMarker marker false).constants (stripComments text)
    constants (front ++ ((ConstantForm.mk name gap (.literal chars)).text ++ '\n' :: rest)) =
      constants front ++
        ⟨String.ofList name.chars, String.ofList (oneLine (ConstantValue.literal chars).chars)⟩ ::
          constants rest := by
  intro constants
  have hshown : stripComments front = [] ∨ (stripComments front).getLast? = some '\n' := by
    rcases hline with rfl | hlast
    · exact .inl rfl
    · exact .inr (hfront.getLast?_stripComments hlast)
  simp only [constants]
  rw [stripComments_append hfront, stripComments_literal,
    constants_append_of_lineEnd marker false hshown, constants_append_newline, constants_form,
    oneLine_name, List.singleton_append]

/-- The characters of a line between two texts. -/
theorem toList_line (before directive : String) (name gap : List Char)
    (value lineEnd behind : String) :
    (before ++ directive ++ String.ofList name ++ String.ofList gap ++ value ++ lineEnd ++
        behind).toList =
      before.toList ++ (directive.toList ++ (name ++ (gap ++
        (value.toList ++ (lineEnd.toList ++ behind.toList))))) := by
  simp only [String.toList_append, String.toList_ofList, List.append_assoc]

/-- A line with a string literal is written by its form. -/
theorem toList_literal_line (before behind : String) {name : Name} {gap : Token inConstantGap}
    {chars : List LiteralChar} {literal : String}
    (hl : literal.toList = (ConstantValue.literal chars).chars) :
    (before ++ "#define " ++ String.ofList name.chars ++ String.ofList gap.chars ++ literal ++
        "\n" ++ behind).toList =
      before.toList ++ ((ConstantForm.mk name gap (.literal chars)).text ++
        '\n' :: behind.toList) := by
  rw [toList_line, hl]
  unfold ConstantForm.text
  generalize "#define ".toList = directive
  simp only [List.append_assoc]
  rfl

/-- A constant with a string literal on a line of its own is extracted as it is
written, between the constants of the texts around it, whatever the literal says:
it may hold openers of comments, quotes that are escaped and directives. The value
is the literal on one line, which is a string literal again, and the literal itself
exactly if that holds no tab, no carriage return and no two spaces side by side. -/
theorem constants_define_literal (marker : ExportMarker) {before name gap literal behind : String}
    (hline : before = "" ∨ before.toList.getLast? = some '\n') (hbefore : EndsBetween before.toList)
    (hname : IsName name) (hgap : IsToken inConstantGap gap)
    (hliteral : stringLiteral.accepts literal.toList = true) :
    let grammar := withMarker marker false
    let value := String.ofList (oneLine literal.toList)
    (grammar.extract
        (before ++ "#define " ++ name ++ gap ++ literal ++ "\n" ++ behind)).constants =
        (grammar.extract before).constants ++ ⟨name, value⟩ :: (grammar.extract behind).constants ∧
      (ConstantDecl.mk name value).isStringLiteral = true ∧
      (value = literal ↔
        '\t' ∉ literal.toList ∧ '\r' ∉ literal.toList ∧ ¬[' ', ' '] <:+: literal.toList) := by
  intro grammar value
  obtain ⟨n, rfl⟩ := hname
  obtain ⟨g, rfl⟩ := hgap
  obtain ⟨marks, hs⟩ := (accepts_iff _ _).mp hliteral
  obtain ⟨chars, hchars, -⟩ := writes_stringLiteral.exists_of_spells hs
  have hline' : before.toList = [] ∨ before.toList.getLast? = some '\n' :=
    hline.imp_left String.toList_eq_nil_iff.mpr
  have hconstants (content : String) : (grammar.extract content).constants =
      grammar.constants (stripComments content.toList) :=
    congrArg Header.constants (extract_eq_declarations_stripComments marker content)
  refine ⟨?_, ?_, ?_⟩
  · rw [hconstants, hconstants, hconstants, toList_literal_line before behind hchars]
    simp only [value, hchars]
    exact constants_stripComments_literal marker hline' hbefore n g chars behind.toList
  · change ConstantDecl.isQuoted value = true
    simp only [value, hchars, ConstantValue.chars]
    exact isQuoted_oneLine _
  · have hnewline : '\n' ∉ literal.toList := hchars ▸ ConstantValue.newline_not_mem _
    rw [← String.toList_inj, String.toList_ofList, oneLine_eq_self_iff,
      forall_isLineBreaking_iff, and_assoc, and_assoc]
    exact and_congr_right fun _ => and_congr_right fun _ => and_iff_right hnewline

/-- A literal with escaped quotes, openers of comments, a directive, two spaces and
a tab in it, behind a comment with an apostrophe and in front of a closer. -/
theorem constants_define_literal_of_openers :
    let before := "#define A 1 // it's\n"
    let gap := " \t "
    let literal := "\"a\\\\\\\" // ' /* #define B  2\t\""
    let behind := "#define C 3 */"
    let grammar := withMarker .standard false
    let value := String.ofList (oneLine literal.toList)
    (before = "" ∨ before.toList.getLast? = some '\n') ∧ EndsBetween before.toList ∧
      IsName "URL" ∧ IsToken inConstantGap gap ∧ stringLiteral.accepts literal.toList = true ∧
      (grammar.extract
          (before ++ "#define " ++ "URL" ++ gap ++ literal ++ "\n" ++ behind)).constants =
        (grammar.extract before).constants ++ ⟨"URL", value⟩ ::
          (grammar.extract behind).constants ∧
      (ConstantDecl.mk "URL" value).isStringLiteral = true ∧
      (value = literal ↔
        '\t' ∉ literal.toList ∧ '\r' ∉ literal.toList ∧ ¬[' ', ' '] <:+: literal.toList) := by
  intro before gap literal behind grammar value
  have hline : before = "" ∨ before.toList.getLast? = some '\n' := .inr (by decide +kernel)
  have hbefore : EndsBetween before.toList :=
    ⟨"#define A 1 ".toList.map .single ++ [.line " it's".toList, .single '\n'],
      by decide +kernel, by decide +kernel⟩
  have hname : IsName "URL" := ⟨.ofAll "URL".toList (by decide), rfl⟩
  have hgap : IsToken inConstantGap gap := ⟨.ofAll gap.toList (by decide), by decide⟩
  have hliteral : stringLiteral.accepts literal.toList = true := by decide +kernel
  exact ⟨hline, hbefore, hname, hgap, hliteral,
    constants_define_literal .standard hline hbefore hname hgap hliteral⟩

end HeaderExports.Grammar
