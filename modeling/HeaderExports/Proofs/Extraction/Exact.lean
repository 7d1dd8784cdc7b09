import HeaderExports.Extraction
import HeaderExports.Proofs.Grammar.Words
import HeaderExports.Proofs.Pattern.Division
import Mathlib.Data.List.Nodup

/-!
# Scans for declarations are exact

Each of the eight patterns describes the texts of one kind of form. What a scan
reports are texts of this kind, from left to right and one apart from the other,
and what it captures are parts of them on one line. Nothing of the kind begins
outside of what is reported, so that a scan misses a declaration only where it
overlaps another one.
-/

namespace HeaderExports

open Text (oneLine)
open Pattern

namespace Occurrence

/-- What is marked with a label that occurs once is the part with this label. -/
theorem part_of_mem_marks {found : Occurrence Part} (hd : (found.marks.map Prod.fst).Nodup)
    {mark : Part × List Char} (hm : mark ∈ found.marks) : found.part mark.1 = oneLine mark.2 := by
  have hsome : (found.marks.reverse.find? (·.1 = mark.1)).isSome = true := by
    rw [List.find?_isSome]
    exact ⟨mark, List.mem_reverse.mpr hm, decide_eq_true rfl⟩
  obtain ⟨mark', hmark'⟩ := Option.isSome_iff_exists.mp hsome
  have hm' := List.mem_reverse.mp (List.mem_of_find?_eq_some hmark')
  have hlabel : mark'.1 = mark.1 := by simpa using List.find?_some hmark'
  rw [part, part?, hmark', List.inj_on_of_nodup_map hd hm' hm hlabel]
  rfl

/-- A part that is not marked is empty. -/
theorem part_eq_nil {found : Occurrence Part} {label : Part}
    (hl : label ∉ found.marks.map Prod.fst) : found.part label = [] := by
  have hnone : found.marks.reverse.find? (·.1 = label) = none := by
    rw [List.find?_eq_none]
    intro mark hm he
    rw [← of_decide_eq_true he] at hl
    exact hl (List.mem_map_of_mem (List.mem_reverse.mp hm))
  rw [part, part?, hnone]
  rfl

end Occurrence

/-- A pattern describes the texts written from forms, and its scans report them
exactly. -/
structure ScansExactly {α : Type} (p : Pattern Part) (text : α → List Char)
    (parts : α → Marks Part) : Prop where
  /-- The words of the pattern are the texts of the forms. -/
  language : ∀ word, p.accepts word = true ↔ ∃ form, word = text form
  /-- Each of them has a character. -/
  nonempty : ∀ form, text form ≠ []
  /-- The parts of a form stand in its text. -/
  within : ∀ form, ∀ mark ∈ parts form, mark.2 <:+: text form
  /-- A scan divides a text into the texts of forms, each of them reported, and
  gaps in which none begins. -/
  division : ∀ whole, Division text parts 0 whole (p.scan whole)
  /-- What is captured of a form are its parts on one line, and nothing where a
  part is not written. -/
  captured : ∀ (found : Occurrence Part) (form : α), found.marks = parts form →
    (∀ mark ∈ parts form, found.part mark.1 = oneLine mark.2) ∧
      ∀ label ∉ (parts form).map Prod.fst, found.part label = []

/-- A pattern that writes nonempty texts with distinct labels is scanned
exactly. -/
theorem scansExactly_of_writes {α : Type} {p : Pattern Part} {text : α → List Char}
    {parts : α → Marks Part} (hw : Writes p text parts) (hn : ∀ form, text form ≠ [])
    (hd : ∀ form, ((parts form).map Prod.fst).Nodup) : ScansExactly p text parts where
  language := by
    intro word
    rw [accepts_iff]
    constructor
    · rintro ⟨marks, hs⟩
      obtain ⟨form, he, -⟩ := hw.exists_of_spells hs
      exact ⟨form, he⟩
    · rintro ⟨form, rfl⟩
      exact ⟨parts form, hw.spells form⟩
  nonempty := hn
  within := fun form => isInfix_of_mem_marks (hw.spells form)
  division := division_scan hw hn
  captured := by
    intro found form hm
    have hdistinct := hd form
    rw [← hm] at hdistinct ⊢
    exact ⟨fun mark => Occurrence.part_of_mem_marks hdistinct,
      fun label => Occurrence.part_eq_nil⟩

namespace Grammar

/-- Under every marker and in every text, each of the eight patterns is scanned
exactly. -/
theorem scansExactly_withMarker (marker : ExportMarker) (keepsComments : Bool) :
    let grammar := withMarker marker keepsComments
    ScansExactly grammar.function (FunctionForm.text marker) FunctionForm.parts ∧
      ScansExactly grammar.constant ConstantForm.text ConstantForm.parts ∧
      ScansExactly grammar.callback CallbackForm.text CallbackForm.parts ∧
      ScansExactly grammar.enum (BracedForm.text "enum ")
        (fun form : BracedForm inEnumBody => form.parts) ∧
      ScansExactly grammar.enumAlias (AliasForm.text "enum") AliasForm.parts ∧
      ScansExactly grammar.struct (BracedForm.text "struct ")
        (fun form : BracedForm inStructBody => form.parts) ∧
      ScansExactly grammar.structAlias (AliasForm.text "struct") AliasForm.parts ∧
      ScansExactly grammar.aliasedStruct AliasedStructForm.text AliasedStructForm.parts := by
  refine ⟨?_, ?_, ?_, ?_, ?_, ?_, ?_, ?_⟩
  · exact scansExactly_of_writes (writes_functionPattern marker) (FunctionForm.text_ne_nil marker)
      fun form => by simp [FunctionForm.parts]
  · exact scansExactly_of_writes writes_constantPattern ConstantForm.text_ne_nil
      fun form => by simp [ConstantForm.parts]
  · exact scansExactly_of_writes writes_callbackPattern CallbackForm.text_ne_nil
      fun form => by simp [CallbackForm.parts]
  · exact scansExactly_of_writes (writes_braced "enum ") (BracedForm.text_ne_nil (by decide))
      fun form => by simp [BracedForm.parts]
  · exact scansExactly_of_writes (writes_aliasPattern "enum") (AliasForm.text_ne_nil "enum")
      fun form => by simp [AliasForm.parts]
  · exact scansExactly_of_writes (writes_braced "struct ") (BracedForm.text_ne_nil (by decide))
      fun form => by simp [BracedForm.parts]
  · exact scansExactly_of_writes (writes_aliasPattern "struct") (AliasForm.text_ne_nil "struct")
      fun form => by simp [AliasForm.parts]
  · exact scansExactly_of_writes writes_aliasedStructPattern AliasedStructForm.text_ne_nil
      fun form => by cases h : form.tag <;> simp [AliasedStructForm.parts, h]

end Grammar

end HeaderExports
