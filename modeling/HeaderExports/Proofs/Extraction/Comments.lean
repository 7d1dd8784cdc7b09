import HeaderExports.Extraction
import HeaderExports.Proofs.Text.Comments

/-!
# What is extracted does not depend on comments

Under a grammar that strips comments the patterns see a space for each comment.
A comment is therefore worth exactly one space, wherever it stands between two
lexemes and whatever it says, and stripping the comments first changes nothing.
-/

namespace HeaderExports.Grammar

open Text (stripComments Lexeme EndsBetween HoldsComment DifferInComments closer)

/-- What is extracted is read off the text without comments. -/
theorem extract_eq_declarations_stripComments (marker : ExportMarker) (content : String) :
    (withMarker marker false).extract content =
      (withMarker marker false).declarations (stripComments content.toList) := by
  rw [extract, visibleText, withMarker, if_neg Bool.false_ne_true]

/-- Contents with the same text besides comments have the same header. -/
theorem extract_congr_stripComments (marker : ExportMarker) {left right : String}
    (hs : stripComments left.toList = stripComments right.toList) :
    (withMarker marker false).extract left = (withMarker marker false).extract right := by
  rw [extract_eq_declarations_stripComments, extract_eq_declarations_stripComments, hs]

/-- A comment between two lexemes counts as one space: what is extracted is the
same with a space in its place, whatever a block comment says up to the first
closer and a line comment up to the line end. So nothing that comments say, in
one place or in many, has any effect. -/
theorem extract_comment (marker : ExportMarker) :
    let grammar := withMarker marker false
    (∀ before inside behind : String, EndsBetween before.toList → ¬closer <:+: inside.toList →
      grammar.extract (before ++ "/*" ++ inside ++ "*/" ++ behind) =
        grammar.extract (before ++ " " ++ behind)) ∧
    (∀ before inside behind : String, EndsBetween before.toList → '\n' ∉ inside.toList →
      grammar.extract (before ++ "//" ++ inside ++ "\n" ++ behind) =
        grammar.extract (before ++ " " ++ "\n" ++ behind)) ∧
    ∀ left right : String, DifferInComments left.toList right.toList →
      grammar.extract left = grammar.extract right := by
  refine ⟨fun before inside behind hb hn => ?_, fun before inside behind hb hn => ?_,
    fun left right hd => extract_congr_stripComments marker (Text.stripComments_congr hd)⟩
  · have hblock : (Lexeme.block inside.toList true).Fits behind.toList :=
      ⟨hn, fun h => absurd h.symm Bool.false_ne_true⟩
    refine extract_congr_stripComments marker ?_
    have hsame := Text.stripComments_comment hb hblock rfl
    simpa [Lexeme.text, closer] using hsame
  · have hline : (Lexeme.line inside.toList).Fits ('\n' :: behind.toList) := ⟨hn, by simp⟩
    refine extract_congr_stripComments marker ?_
    have hsame := Text.stripComments_comment hb hline rfl
    simpa [Lexeme.text] using hsame

/-- Comments behind a string that holds an opener: a block comment with quotes,
stars and a line comment in it, a line comment with a declaration in it, and
both with other texts in their places. -/
theorem extract_comment_behind_literal :
    let grammar := withMarker .standard false
    let before := "#define URL \"//h\"\nstruct P \x7b int x;"
    let block := "/\"' * / // \x7d; *"
    let line := "/* struct Q \x7b int z; \x7d; '"
    let behind := " int y; \x7d;"
    (EndsBetween before.toList ∧ ¬closer <:+: block.toList ∧
      grammar.extract (before ++ "/*" ++ block ++ "*/" ++ behind) =
        grammar.extract (before ++ " " ++ behind)) ∧
    (EndsBetween before.toList ∧ '\n' ∉ line.toList ∧
      grammar.extract (before ++ "//" ++ line ++ "\n" ++ behind) =
        grammar.extract (before ++ " " ++ "\n" ++ behind)) ∧
    DifferInComments "/*a*/;//b".toList "/**/;//'".toList ∧
      grammar.extract "/*a*/;//b" = grammar.extract "/**/;//'" := by
  intro grammar before block line behind
  have hbefore : EndsBetween before.toList := by
    refine ⟨"#define URL ".toList.map .single ++ .literal '"' "//h".toList (some '"') ::
      "\nstruct P \x7b int x;".toList.map .single, by decide +kernel, by decide +kernel⟩
  have hblock : ¬closer <:+: block.toList := by decide +kernel
  have hline : '\n' ∉ line.toList := by decide +kernel
  have hdiffer : DifferInComments "/*a*/;//b".toList "/**/;//'".toList :=
    ⟨[.block ['a'] true, .single ';', .line ['b']], [.block [] true, .single ';', .line ['\'']],
      by decide +kernel, by decide +kernel,
      .cons (.inr ⟨rfl, rfl⟩) (.cons (.inl rfl) (.cons (.inr ⟨rfl, rfl⟩) .nil))⟩
  have h := extract_comment .standard
  exact ⟨⟨hbefore, hblock, h.1 before block behind hbefore hblock⟩,
    ⟨hbefore, hline, h.2.1 before line behind hbefore hline⟩, hdiffer, h.2.2 _ _ hdiffer⟩

/-- Stripping comments is done in one go: a second time changes nothing, no
comment is left, and a text changes exactly if it holds a comment. So what is
extracted is the same if the comments are stripped beforehand. -/
theorem extract_stripComments (source : String) :
    stripComments (stripComments source.toList) = stripComments source.toList ∧
      (stripComments source.toList = source.toList ↔ ¬HoldsComment source.toList) ∧
      ¬HoldsComment (stripComments source.toList) ∧
      ∀ marker : ExportMarker,
        (withMarker marker false).extract (String.ofList (stripComments source.toList)) =
          (withMarker marker false).extract source := by
  have htwice := Text.stripComments_stripComments source.toList
  refine ⟨htwice, Text.stripComments_eq_self_iff _, Text.not_holdsComment_stripComments _,
    fun marker => extract_congr_stripComments marker ?_⟩
  rw [String.toList_ofList, htwice]

end HeaderExports.Grammar
