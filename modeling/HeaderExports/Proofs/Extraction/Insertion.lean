import HeaderExports.Proofs.Extraction.Marks
import HeaderExports.Proofs.Grammar.Pinned

/-!
# Declarations are read wherever they stand

A function, a function pointer type, an enumeration or a type name for one is
read whatever text it is inserted into. The text around it may be broken: an
unfinished declaration in front does not draw it in, and it draws in nothing
of what follows. The readings around it stay as they are without it. Functions
are read so under every marker but the proper ends of the qualifier, which
make the qualifier look like an announcing word.
-/

namespace HeaderExports

namespace Pattern

variable {σ α : Type} {p : Pattern σ}

/-- What is made of the marks of a pinned pattern is made of an inserted word
as if it stood alone, and of the texts around it as if it were not there. -/
theorem Pinned.map_scan_insert (hp : Pinned p) {f : Occurrence σ → α}
    (hf : ∀ found found' : Occurrence σ, found.marks = found'.marks → f found = f found')
    {word : List Char} (hw : p.accepts word = true) (front rest : List Char) :
    (p.scan (front ++ word ++ rest)).map f =
        (p.scan front).map f ++ (p.scan word).map f ++ (p.scan rest).map f ∧
      ((p.scan word).map f).length = 1 := by
  obtain ⟨marks, hs⟩ := (accepts_iff p word).mp hw
  have halone := hp.readings_insert hs [] []
  rw [List.nil_append, List.append_nil, readings_nil hp.nonempty, List.nil_append] at halone
  have hinsert := hp.readings_insert hs front rest
  rw [map_scan_eq hf, map_scan_eq hf, map_scan_eq hf, map_scan_eq hf, List.append_assoc, hinsert,
    halone]
  simp only [List.map_append, List.map_cons, List.map_nil, List.append_assoc, List.singleton_append,
    List.length_singleton, and_self]

end Pattern

namespace Grammar

/-- A word that one of the four patterns accepts adds exactly one declaration
to what is read around it, at the place at which it is inserted, and that
declaration is what is read off the word alone. -/
theorem insertion (marker : ExportMarker) (keepsComments : Bool) :
    let grammar := withMarker marker keepsComments
    (marker.text ∉ ["t", "st", "nst", "onst"] → ∀ front word rest : List Char,
      grammar.function.accepts word = true →
        grammar.functions (front ++ word ++ rest) =
            grammar.functions front ++ grammar.functions word ++ grammar.functions rest ∧
          (grammar.functions word).length = 1) ∧
    (∀ front word rest : List Char, grammar.callback.accepts word = true →
        grammar.callbacks (front ++ word ++ rest) =
            grammar.callbacks front ++ grammar.callbacks word ++ grammar.callbacks rest ∧
          (grammar.callbacks word).length = 1) ∧
    (∀ front word rest : List Char, grammar.enum.accepts word = true →
        grammar.enums (front ++ word ++ rest) =
            grammar.enums front ++ grammar.enums word ++ grammar.enums rest ∧
          (grammar.enums word).length = 1) ∧
    (∀ front word rest : List Char, grammar.enumAlias.accepts word = true →
        grammar.enumAliases (front ++ word ++ rest) =
            grammar.enumAliases front ++ grammar.enumAliases word ++ grammar.enumAliases rest ∧
          (grammar.enumAliases word).length = 1) := by
  refine ⟨fun hm front word rest hw => ?_, fun front word rest hw => ?_,
    fun front word rest hw => ?_, fun front word rest hw => ?_⟩
  · refine (pinned_functionPattern hm).map_scan_insert (fun found found' he => ?_) hw front rest
    rw [Occurrence.leaf_congr he, Occurrence.leaf_congr he, Occurrence.part_congr he]
  · refine pinned_callbackPattern.map_scan_insert (fun found found' he => ?_) hw front rest
    rw [Occurrence.leaf_congr he, Occurrence.leaf_congr he, Occurrence.part_congr he]
  · refine pinned_enumPattern.map_scan_insert (fun found found' he => ?_) hw front rest
    rw [Occurrence.leaf_congr he, Occurrence.part_congr he]
  · refine pinned_enumAliasPattern.map_scan_insert (fun found found' he => ?_) hw front rest
    rw [Occurrence.leaf_congr he, Occurrence.leaf_congr he]

/-- Words of the four kinds between a declaration that is not finished and one
that is not begun. -/
theorem insertion_between_fragments :
    let grammar := withMarker .standard false
    let front := "A_EXPORT const int* f(enum E \x7b X, typedef ".toList
    let rest := " Y \x7d; g(int a);".toList
    let function := "B_EXPORT const int* g(int a[4], char *b);".toList
    let callback := "typedef const void*\t(*Handler)(int code)".toList
    let enum := "enum Color \x7b RED = 1, GREEN \x7d;".toList
    let enumAlias := "typedef enum Color Shade;".toList
    (ExportMarker.standard.text ∉ ["t", "st", "nst", "onst"] ∧
      grammar.function.accepts function = true ∧
      grammar.functions (front ++ function ++ rest) =
          grammar.functions front ++ grammar.functions function ++ grammar.functions rest ∧
        (grammar.functions function).length = 1) ∧
    (grammar.callback.accepts callback = true ∧
      grammar.callbacks (front ++ callback ++ rest) =
          grammar.callbacks front ++ grammar.callbacks callback ++ grammar.callbacks rest ∧
        (grammar.callbacks callback).length = 1) ∧
    (grammar.enum.accepts enum = true ∧
      grammar.enums (front ++ enum ++ rest) =
          grammar.enums front ++ grammar.enums enum ++ grammar.enums rest ∧
        (grammar.enums enum).length = 1) ∧
    (grammar.enumAlias.accepts enumAlias = true ∧
      grammar.enumAliases (front ++ enumAlias ++ rest) =
          grammar.enumAliases front ++ grammar.enumAliases enumAlias ++ grammar.enumAliases rest ∧
        (grammar.enumAliases enumAlias).length = 1) := by
  intro grammar front rest function callback enum enumAlias
  have hm : ExportMarker.standard.text ∉ ["t", "st", "nst", "onst"] := by decide
  have hfunction : grammar.function.accepts function = true := by decide +kernel
  have hcallback : grammar.callback.accepts callback = true := by decide +kernel
  have henum : grammar.enum.accepts enum = true := by decide +kernel
  have henumAlias : grammar.enumAlias.accepts enumAlias = true := by decide +kernel
  have h := insertion .standard false
  exact ⟨⟨hm, hfunction, h.1 hm front function rest hfunction⟩,
    ⟨hcallback, h.2.1 front callback rest hcallback⟩, ⟨henum, h.2.2.1 front enum rest henum⟩,
    ⟨henumAlias, h.2.2.2 front enumAlias rest henumAlias⟩⟩

end Grammar

end HeaderExports
