import HeaderExports.Proofs.Extraction.WellFormed
import HeaderExports.Proofs.Grammar.Uncut
import HeaderExports.Proofs.Structs.Nested

/-!
# Where the words of members come from

A list or a body is put on one line before it is read, and tabs and line ends are
deleted with nothing in their place. So a word in the type or name of a parameter or a
field, or in the name of an enumerator, need not be a word of the text: two words with
nothing but tabs and line ends between them become one. But it is always made of whole
words of the text, and every word of the text that goes into it goes into it whole.
-/

namespace HeaderExports

open Grammar Pattern
open Text (BrokenWord IsWordIn StandsIn WordsApart isLineBreaking isWord isWordIn_append oneLine
  standsIn_withoutBreaks withoutBreaks wordsApart_of_any)

/-- The types and names of all parameters and fields, and the names of all enumerators. -/
def Header.memberLeaves (header : Header) : List String :=
  header.parameters.flatMap Parameter.leaves ++
    header.enums.flatMap (fun enum => enum.values.map (·.name)) ++
    header.fields.flatMap Field.leaves

namespace Grammar

/-! ## Lists and bodies in a text -/

/-- What a scan marks as a list or a body stands uncut in the text, when tabs and line
ends are deleted. -/
def ScansEnclosed (p : Pattern Part) : Prop :=
  ∀ text, ∀ found ∈ p.scan text, StandsIn (withoutBreaks found.members) (withoutBreaks text)

/-- Lists and bodies stand uncut, if every text of a pattern has its own between
characters that are no word characters and not deleted. -/
theorem scansEnclosed_of_writes {α : Type} {p : Pattern Part} {text : α → List Char}
    {parts : α → Marks Part} (hw : Writes p text parts) (opening closing : Char)
    (ho : isWord opening = false ∧ isLineBreaking opening = false)
    (hc : isWord closing = false ∧ isLineBreaking closing = false)
    (ht : ∀ form span, ∃ head tail, text form = head ++
      opening :: ((⟨span, parts form⟩ : Occurrence Part).members ++ closing :: tail)) :
    ScansEnclosed p := by
  intro whole found hm
  have hn (form : α) : text form ≠ [] := by
    obtain ⟨head, tail, he⟩ := ht form ⟨0, 0⟩
    rw [he]
    exact List.append_ne_nil_of_right_ne_nil _ (List.cons_ne_nil _ _)
  obtain ⟨front, form, behind, rfl, rfl⟩ := exists_report_of_mem_scan hw hn hm
  obtain ⟨head, tail, he⟩ := ht form (Text.spanBehind front (text form))
  have hwhole : front ++ (text form ++ behind) = (front ++ head) ++
      opening :: ((report text parts front form).members ++ closing :: (tail ++ behind)) := by
    rw [he]
    simp only [List.append_assoc, List.cons_append]
    rfl
  rw [hwhole]
  exact standsIn_withoutBreaks ho hc _ _ _

/-- Parameter lists of functions stand uncut. -/
theorem scansEnclosed_function (marker : ExportMarker) : ScansEnclosed (functionPattern marker) :=
  scansEnclosed_of_writes (writes_functionPattern marker) '(' ')' (by decide) (by decide)
    fun form _ => ⟨_, _, form.text_eq marker⟩

/-- Parameter lists of function pointer types stand uncut. -/
theorem scansEnclosed_callback : ScansEnclosed callbackPattern := by
  refine scansEnclosed_of_writes writes_callbackPattern '(' ')' (by decide) (by decide)
    fun form span => ⟨form.head ++ '(' :: '*' :: (form.name.chars ++ [')']), [], ?_⟩
  rw [form.text_eq, form.tail_eq, List.append_assoc]
  rfl

/-- Bodies behind a keyword stand uncut. -/
theorem scansEnclosed_braced (inside : Char → Bool) (keyword : String) :
    ScansEnclosed (chain [Pattern.lit keyword, name, blanks, body inside, Pattern.lit ";"]) :=
  scansEnclosed_of_writes (writes_braced keyword) '\x7b' '\x7d' (by decide) (by decide)
    fun form : BracedForm inside => fun _ => ⟨_, _, form.text_eq keyword⟩

/-- Bodies of structs with a type name stand uncut. -/
theorem scansEnclosed_aliasedStruct : ScansEnclosed aliasedStructPattern := by
  refine scansEnclosed_of_writes writes_aliasedStructPattern '\x7b' '\x7d' (by decide) (by decide)
    fun form span => ⟨form.head, form.behind.chars ++ (form.name.chars ++ [';']), ?_⟩
  have hmembers : (⟨span, form.parts⟩ : Occurrence Part).members = form.members.chars := by
    obtain ⟨_ | tag, gap, members, behind, name⟩ := form <;> rfl
  rw [hmembers]
  exact form.text_eq

/-! ## Leaves in a text -/

/-- A leaf that stands uncut in a fragment on one line, where the fragment stands uncut
in the text without tabs and line ends. -/
def Traced (text : List Char) (leaf : String) : Prop :=
  ∃ fragment, StandsIn leaf.toList (oneLine fragment) ∧
    StandsIn (withoutBreaks fragment) (withoutBreaks text)

/-- The words of a traced leaf are words of the text without tabs and line ends. -/
theorem Traced.isWordIn {text word : List Char} {leaf : String} (hl : Traced text leaf)
    (hw : IsWordIn word leaf.toList) : IsWordIn word (withoutBreaks text) := by
  obtain ⟨fragment, hleaf, hfragment⟩ := hl
  exact (hw.of_standsIn hleaf).of_oneLine.of_standsIn hfragment

section Leaves

variable (marker : ExportMarker) (keepsComments : Bool) {p : Pattern Part} {text : List Char}

/-- A leaf that stands uncut in a list or a body on one line is traced. -/
theorem ScansEnclosed.traced (hp : ScansEnclosed p) {found : Occurrence Part}
    (hm : found ∈ p.scan text) {leaf : String} (hl : StandsIn leaf.toList (found.part .body)) :
    Traced text leaf :=
  ⟨found.members, hl, hp text found hm⟩

/-- The leaves of parameters are traced. -/
theorem traced_parameters (hp : ScansEnclosed p) : ∀ found ∈ p.scan text,
    ∀ parameter ∈ (withMarker marker keepsComments).parameters (found.part .body),
      ∀ leaf ∈ parameter.leaves, Traced text leaf := by
  intro found hm parameter hparameter
  obtain ⟨htype, hname⟩ := standsIn_parameters marker keepsComments _ parameter hparameter
  exact List.forall_mem_cons.mpr ⟨hp.traced hm htype,
    List.forall_mem_singleton.mpr (hp.traced hm hname)⟩

/-- The names of enumerators are traced. -/
theorem traced_enumerators (hp : ScansEnclosed p) : ∀ found ∈ p.scan text,
    ∀ enumerator ∈ (withMarker marker keepsComments).enumerators (found.part .body),
      Traced text enumerator.name :=
  fun _ hm enumerator he =>
    hp.traced hm (standsIn_enumerators marker keepsComments _ enumerator he)

/-- The leaves of fields are traced. -/
theorem traced_fields (hp : ScansEnclosed p) : ∀ found ∈ p.scan text,
    ∀ field ∈ (withMarker marker keepsComments).fields (found.part .body),
      ∀ leaf ∈ field.leaves, Traced text leaf := by
  intro found hm field hfield
  obtain ⟨htype, hname⟩ := standsIn_fields marker keepsComments _ field hfield
  exact List.forall_mem_cons.mpr ⟨hp.traced hm htype,
    List.forall_mem_singleton.mpr (hp.traced hm hname)⟩

/-- The types and names of all members of a header are traced in the text that its
patterns see. -/
theorem traced_memberLeaves (content : String) :
    ∀ leaf ∈ ((withMarker marker keepsComments).extract content).memberLeaves,
      Traced ((withMarker marker keepsComments).visibleText content.toList) leaf := by
  rw [extract]
  generalize (withMarker marker keepsComments).visibleText content.toList = text
  obtain ⟨haliased, -, hbare, -⟩ := structPlaces_phases (withMarker marker keepsComments) text
  simp only [Header.memberLeaves, Header.parameters, Header.fields, declarations, functions,
    callbacks, enums, structDecl, aliasedStructDecl, List.forall_mem_append,
    List.forall_mem_flatMap, List.forall_mem_map]
  refine ⟨⟨⟨?_, ?_⟩, ?_⟩, ?_, ?_⟩
  · exact traced_parameters marker keepsComments (scansEnclosed_function marker)
  · exact traced_parameters marker keepsComments scansEnclosed_callback
  · exact traced_enumerators marker keepsComments (scansEnclosed_braced inEnumBody "enum ")
  · intro found hm
    rw [hbare] at hm
    exact traced_fields marker keepsComments (scansEnclosed_braced inStructBody "struct ") found
      (List.mem_of_mem_filter hm)
  · intro found hm
    rw [haliased] at hm
    exact traced_fields marker keepsComments scansEnclosed_aliasedStruct found
      (List.mem_of_mem_filter hm)

/-- Every word in the type or name of a parameter or a field, or in the name of an
enumerator, is made of whole words of the text that the patterns see, one or more of
them one behind the other with nothing but tabs and line ends between them. No word is
cut apart: the text goes on with no word character in front of them or behind, and
without its tabs and line ends it has the same word. So where no two words of the text
have nothing but tabs and line ends between them, it is a word of the text. -/
theorem words_of_memberLeaves (content : String) :
    let text := (withMarker marker keepsComments).visibleText content.toList
    ∀ leaf ∈ ((withMarker marker keepsComments).extract content).memberLeaves,
      ∀ word, IsWordIn word leaf.toList →
        (∃ broken : BrokenWord, broken.joined = word ∧ StandsIn broken.written text ∧
          ∀ part ∈ broken.parts, IsWordIn part.chars text) ∧
        IsWordIn word (withoutBreaks text) ∧ (WordsApart text → IsWordIn word text) := by
  intro text leaf hm word hw
  have hwhole := (traced_memberLeaves marker keepsComments content leaf hm).isWordIn hw
  obtain ⟨broken, hjoined, hwritten, hparts⟩ := hwhole.exists_brokenWord
  refine ⟨⟨broken, hjoined, hwritten, hparts⟩, hwhole, fun hapart => ?_⟩
  rw [← hjoined, BrokenWord.joined_of_more_eq_nil (hapart.more_eq_nil hwritten)]
  exact hparts broken.first List.mem_cons_self

end Leaves

/-- A type over two lines is made of two words of the text, and a type and a name on one
line are words of the text themselves. -/
theorem words_of_memberLeaves_on_lines :
    let broken := "A_EXPORT int f(unsigned\n\tint* count);"
    let single := "struct Point \x7b float x; \x7d;"
    ("unsignedint*" ∈ (standard.extract broken).memberLeaves ∧
      IsWordIn "unsignedint".toList "unsignedint*".toList ∧
      IsWordIn "unsignedint".toList (withoutBreaks (standard.visibleText broken.toList))) ∧
    ∀ leaf ∈ ["float", "x"], leaf ∈ (standard.extract single).memberLeaves ∧
      IsWordIn leaf.toList leaf.toList ∧ WordsApart (standard.visibleText single.toList) ∧
      IsWordIn leaf.toList (standard.visibleText single.toList) := by
  intro broken single
  have hbroken : "unsignedint*" ∈ (standard.extract broken).memberLeaves := by decide +kernel
  have hword : IsWordIn "unsignedint".toList "unsignedint*".toList :=
    isWordIn_append (Token.ofAll "unsignedint".toList (by decide)) fun _ hc =>
      Option.some_inj.mp hc ▸ rfl
  have hapart : WordsApart (standard.visibleText single.toList) :=
    wordsApart_of_any (by decide +kernel)
  have hsingle : ∀ leaf ∈ ["float", "x"], leaf ∈ (standard.extract single).memberLeaves ∧
      (!leaf.toList.isEmpty && leaf.toList.all isWord) = true := by decide +kernel
  refine ⟨⟨hbroken, hword,
    (words_of_memberLeaves .standard false broken _ hbroken _ hword).2.1⟩, fun leaf hl => ?_⟩
  obtain ⟨hm, hall⟩ := hsingle leaf hl
  have hwhole : IsWordIn leaf.toList leaf.toList := by
    have hself : IsWordIn leaf.toList (leaf.toList ++ []) :=
      isWordIn_append (Token.ofAll leaf.toList hall) fun c hc => absurd hc (Option.not_mem_none c)
    rwa [List.append_nil] at hself
  exact ⟨hm, hwhole, hapart,
    (words_of_memberLeaves .standard false single leaf hm _ hwhole).2.2 hapart⟩

/-- A qualifier at the end of a line is joined with the type on the next line, to a word
that stands nowhere in the text. -/
theorem word_joined_over_line_end :
    let content := "A_EXPORT int f(const\nchar* s);"
    (standard.extract content).functions = [⟨"f", "int", [⟨"constchar*", "s"⟩]⟩] ∧
      ¬∀ (marker : ExportMarker) (keepsComments : Bool) (content : String),
        ∀ leaf ∈ ((withMarker marker keepsComments).extract content).memberLeaves,
          ∀ word, IsWordIn word leaf.toList →
            IsWordIn word ((withMarker marker keepsComments).visibleText content.toList) := by
  intro content
  have hfunctions : (standard.extract content).functions =
      [⟨"f", "int", [⟨"constchar*", "s"⟩]⟩] := by decide +kernel
  refine ⟨hfunctions, fun hall => ?_⟩
  have hm : "constchar*" ∈ (standard.extract content).memberLeaves := by
    rw [Header.memberLeaves, Header.parameters, hfunctions]
    simp [Parameter.leaves]
  have hword : IsWordIn "constchar".toList "constchar*".toList :=
    isWordIn_append (Token.ofAll "constchar".toList (by decide)) fun _ hc =>
      Option.some_inj.mp hc ▸ rfl
  obtain ⟨-, -, front, behind, he, -, -⟩ := hall .standard false content _ hm _ hword
  have hinfix : "constchar".toList <:+: standard.visibleText content.toList :=
    ⟨front, behind, by rw [List.append_assoc]; exact he.symm⟩
  exact absurd hinfix (by decide +kernel)

end Grammar

end HeaderExports
