import HeaderExports.Proofs.Extraction.Members
import HeaderExports.Proofs.Grammar.Determined
import HeaderExports.Proofs.Grammar.Preferred
import HeaderExports.Proofs.Layout.CommaLists

/-!
# Parameter lists broken around commas

Parameters are read in order whatever stands around the commas of their list.
The type and the name of a parameter are told apart by the one space that is
left between them, and the qualifier is not taken for a type, nor a type for
the qualifier, since behind a name there is no second one.
-/

namespace HeaderExports

open Grammar Pattern
open Text

variable {comments : Bool}

/-- A parameter with one or two spaces between its words. -/
structure LaidParameter (comments : Bool) where
  /-- Whether two spaces stand behind the qualifier, if it is written. -/
  qualifier : Option Bool
  /-- The type. -/
  type : Token inParameterType
  /-- Whether two spaces stand behind the type. -/
  wide : Bool
  /-- The name. -/
  name : Token inParameterName
  /-- What stands behind the name. -/
  behind : Layout comments

namespace LaidParameter

/-- The tokens of a parameter with their layout. -/
def pieces (parameter : LaidParameter comments) : List (Piece comments) :=
  parameter.qualifier.toList.map (fun two => ⟨qualifierToken, Layout.spaces two⟩) ++
    [⟨parameter.type.solid fun _ hc => isSolid_of_inParameterName (inParameterName_of_type hc),
        Layout.spaces parameter.wide⟩,
      ⟨parameter.name.solid fun _ => isSolid_of_inParameterName, parameter.behind⟩]

/-- The parameter on one line. -/
def form (parameter : LaidParameter comments) : ParameterForm where
  qualified := parameter.qualifier.isSome
  type := parameter.type
  name := parameter.name

/-- The parameter that is declared, without its qualifier. -/
def leaves (parameter : LaidParameter comments) : Parameter :=
  ⟨String.ofList parameter.type.chars, String.ofList parameter.name.chars⟩

/-- On one line there is one space between the words of a parameter. -/
theorem written_pieces (parameter : LaidParameter comments) :
    written Layout.short parameter.pieces = parameter.form.text ++ parameter.behind.short := by
  obtain ⟨_ | two, type, wide, name, behind⟩ := parameter
  · simp [pieces, written, form, ParameterForm.text, qualifierText, Layout.short_spaces]
  · simp [pieces, written, form, ParameterForm.text, qualifierText, Layout.short_spaces,
      qualifierToken]

/-- A parameter is read in front of a comma and at the end of its list. -/
theorem readings_append (parameter : LaidParameter comments) {rest : List Char}
    (hr : ∀ c ∈ rest.head?, c = ',') :
    parameterPattern.readings (written Layout.short parameter.pieces ++ rest) =
      parameter.form.parts :: parameterPattern.readings rest := by
  have hn := not_spells_parameter.1
  have hcomma : ∀ c ∈ rest.head?, inParameterName c = false := by
    intro c hc
    rw [hr c hc]
    decide
  have hgap (c : Char) (hc : c ∈ parameter.behind.short) : inParameterName c = false :=
    not_inParameterName_of_isBlank (parameter.behind.isBlank_of_mem_short c hc)
  have hend := forall_mem_head_append hgap hcomma
  have hsecond : ¬NameBehindSpace (parameter.behind.short ++ rest) := by
    rintro ⟨c, more, he, hc⟩
    cases hbehind : parameter.behind.short with
    | nil =>
      rw [hbehind, List.nil_append] at he
      exact absurd (hr ' ' (by rw [he]; rfl)) (by decide)
    | cons d gap =>
      rw [hbehind, List.cons_append] at he
      have hgap' : ∀ c ∈ gap, inParameterName c = false := fun c hc =>
        hgap c (hbehind ▸ List.mem_cons_of_mem d hc)
      have hout := forall_mem_head_append hgap' hcomma c (by rw [(List.cons.inj he).2]; rfl)
      rw [hc] at hout
      exact Bool.noConfusion hout
  have hread := prefers_parameterForm parameter.form hend hsecond
  rw [parameter.written_pieces, List.append_assoc, readings_append_of_first? hn hread.first?_eq]
  exact congrArg _ (readings_blanks_append hn
    (fun c hc => not_spells_parameter.2 c (not_inParameterType_of_isBlank hc))
    parameter.behind.isBlank_of_mem_short rest)

/-- The tokens of a parameter may stand in a parameter list. -/
theorem inParameterList_of_mem_pieces (parameter : LaidParameter comments) :
    ∀ piece ∈ parameter.pieces, ∀ c ∈ piece.token.chars, inParameterList c = true := by
  have hin {c : Char} (hc : inParameterName c = true) : inParameterList c = true := by
    simp only [inParameterName, inParameterList, Bool.or_eq_true] at hc ⊢
    tauto
  have hconst : ∀ c ∈ qualifierToken.chars, inParameterList c = true :=
    List.all_eq_true.mp (by decide)
  obtain ⟨qualifier, type, wide, name, behind⟩ := parameter
  have hwords : ∀ piece ∈ pieces ⟨none, type, wide, name, behind⟩, ∀ c ∈ piece.token.chars,
      inParameterList c = true :=
    List.forall_mem_cons.mpr ⟨fun c hc => hin (inParameterName_of_type (type.inside_of_mem c hc)),
      List.forall_mem_singleton.mpr fun c hc => hin (name.inside_of_mem c hc)⟩
  cases qualifier with
  | none => exact hwords
  | some two => exact List.forall_mem_cons.mpr ⟨hconst, hwords⟩

end LaidParameter

/-- A parameter list with layout around its commas. -/
abbrev LaidParameters (comments : Bool) := LaidList (LaidParameter comments) comments

namespace LaidParameters

/-- The list between its parentheses, its layout written in a given way. -/
def body (write : Layout comments → List Char) (parameters : LaidParameters comments) :
    List Char :=
  (parameters.laidText LaidParameter.pieces).chars write

/-- The parameters that are declared. -/
def leaves (parameters : LaidParameters comments) : List Parameter :=
  parameters.list.items.map LaidParameter.leaves

/-- What is seen of the list. -/
def shown (parameters : LaidParameters comments) : Stretch inParameterList :=
  ⟨parameters.body Layout.shown, LaidList.forall_mem_shown
    (fun c hc => by simp [inParameterList, hc]) (by decide)
    LaidParameter.inParameterList_of_mem_pieces parameters⟩

/-- On one line a list is read as its parameters. -/
theorem parameters_shown (marker : ExportMarker) (keepsComments : Bool)
    (parameters : LaidParameters comments) :
    (withMarker marker keepsComments).parameters (oneLine parameters.shown.chars) =
      parameters.leaves := by
  have hskip (c : Char) (hc : isBlank c = true ∨ c = ',') (word : List Char) (marks : Marks Part) :
      ¬Spells parameterPattern (c :: word) marks := by
    refine not_spells_parameter.2 c ?_ word marks
    rcases hc with hc | rfl
    · exact not_inParameterType_of_isBlank hc
    · decide
  have hreadings : parameterPattern.readings (oneLine parameters.shown.chars) =
      (parameters.list.items.map LaidParameter.form).map ParameterForm.parts := by
    rw [List.map_map]
    exact readings_laidList not_spells_parameter.1 hskip
      (fun parameter rest hr => parameter.readings_append hr) parameters
  rw [parameters_of_readings marker keepsComments hreadings, List.map_map]
  rfl

end LaidParameters

/-- A function with a parameter list of any layout. -/
structure LaidFunction (comments : Bool) where
  /-- The word in front of the export marker. -/
  announcer : Name
  /-- The return type. -/
  type : ReturnType
  /-- The name. -/
  name : Name
  /-- The parameter list. -/
  parameters : LaidParameters comments

namespace LaidFunction

/-- The text of the function. -/
def text (marker : ExportMarker) (form : LaidFunction comments) : List Char :=
  form.announcer.chars ++ (marker.text.toList ++ (' ' :: (form.type.chars ++
    (' ' :: (form.name.chars ++ ('(' :: (form.parameters.body Layout.text ++ [')', ';'])))))))

/-- The function that is declared. -/
def leaves (form : LaidFunction comments) : FunctionDecl :=
  ⟨String.ofList form.name.chars, String.ofList form.type.chars, form.parameters.leaves⟩

/-- What is seen of the function. -/
def shown (form : LaidFunction comments) : FunctionForm where
  announcer := form.announcer
  type := form.type
  name := form.name
  list := form.parameters.shown

/-- A function is written from its head and its parameter list. -/
theorem text_eq (marker : ExportMarker) (form : LaidFunction comments) :
    form.text marker =
      form.shown.head marker ++ '(' :: (form.parameters.body Layout.text ++ [')', ';']) := by
  simp only [text, shown, FunctionForm.head, List.append_assoc, List.cons_append]

/-- A function is seen with what is seen of its parameter list. -/
theorem visibleText_text_append (marker : ExportMarker) {keepsComments : Bool}
    (form : LaidFunction (!keepsComments)) (rest : List Char) :
    (withMarker marker keepsComments).visibleText (form.text marker ++ rest) =
      form.shown.text marker ++ (withMarker marker keepsComments).visibleText rest := by
  have hhead : ∀ c ∈ form.shown.head marker ++ ['('], isInert c = true := by
    have hnot (c : Char) (hw : isWord c = false ∧ isMarkerChar c = false) (hc : c ≠ '*' ∧ c ≠ ' ')
        (ho : c ∉ ['(']) : c ∉ form.shown.head marker ++ ['('] :=
      List.not_mem_append (form.shown.not_mem_head marker hw.1 hw.2 hc.1 hc.2) ho
    exact forall_isInert (hnot '/' (by decide) (by decide) (by decide))
      (hnot '"' (by decide) (by decide) (by decide)) (hnot '\'' (by decide) (by decide) (by decide))
  have hclose : ∀ c ∈ [')', ';'], isInert c = true := List.all_eq_true.mp (by decide)
  have htext : form.text marker ++ rest = (form.shown.head marker ++ ['(']) ++
      (form.parameters.body Layout.text ++ ([')', ';'] ++ rest)) := by
    simp only [form.text_eq, List.append_assoc, List.cons_append, List.nil_append]
  rw [htext, visibleText_append_of_inert hhead, LaidParameters.body,
    LaidText.visibleText_append, visibleText_append_of_inert hclose, FunctionForm.text_eq]
  simp only [List.append_assoc, List.cons_append, List.nil_append]
  rfl

/-- A function in front of any text is read with its parameters. -/
theorem functions_extract_append (marker : ExportMarker) (keepsComments : Bool)
    (form : LaidFunction (!keepsComments)) (rest : List Char) :
    ((withMarker marker keepsComments).extract
        (String.ofList (form.text marker ++ rest))).functions =
      form.leaves ::
        ((withMarker marker keepsComments).extract (String.ofList rest)).functions := by
  have hleaves : (⟨String.ofList (oneLine form.name.chars), String.ofList (oneLine form.type.chars),
      (withMarker marker keepsComments).parameters (oneLine form.parameters.shown.chars)⟩ :
        FunctionDecl) = form.leaves := by
    rw [oneLine_name, oneLine_returnType, LaidParameters.parameters_shown, leaves]
  change (withMarker marker keepsComments).functions
      ((withMarker marker keepsComments).visibleText
        (String.ofList (form.text marker ++ rest)).toList) =
    _ :: (withMarker marker keepsComments).functions
      ((withMarker marker keepsComments).visibleText (String.ofList rest).toList)
  rw [String.toList_ofList, String.toList_ofList, visibleText_text_append, ← hleaves]
  unfold functions
  exact (determined_functionPattern marker).map_scan_append (fun found found' he => by
    rw [Occurrence.leaf_congr he, Occurrence.leaf_congr he, Occurrence.part_congr he])
    ((writes_functionPattern marker).spells form.shown) _

end LaidFunction

/-- A function pointer type with a parameter list of any layout. -/
structure LaidCallback (comments : Bool) where
  /-- The return type. -/
  type : ReturnType
  /-- What stands in front of the name's parentheses. -/
  gap : Layout comments
  /-- The name. -/
  name : Name
  /-- The parameter list. -/
  parameters : LaidParameters comments

namespace LaidCallback

/-- The text of the function pointer type. -/
def text (form : LaidCallback comments) : List Char :=
  "typedef ".toList ++ (form.type.chars ++ (form.gap.text ++ ('(' :: '*' ::
    (form.name.chars ++ (')' :: '(' :: (form.parameters.body Layout.text ++ [')']))))))

/-- The function pointer type that is declared. -/
def leaves (form : LaidCallback comments) : CallbackDecl :=
  ⟨String.ofList form.type.chars, String.ofList form.name.chars, form.parameters.leaves⟩

/-- What is seen of the function pointer type. -/
def shown (form : LaidCallback comments) : CallbackForm where
  type := form.type
  gap := ⟨form.gap.shown, form.gap.isBlank_of_mem_shown⟩
  name := form.name
  list := form.parameters.shown

/-- A function pointer type is seen with what is seen of its layout. -/
theorem visibleText_text_append {marker : ExportMarker} {keepsComments : Bool}
    (form : LaidCallback (!keepsComments)) (rest : List Char) :
    (withMarker marker keepsComments).visibleText (form.text ++ rest) =
      form.shown.text ++ (withMarker marker keepsComments).visibleText rest := by
  have htype : ∀ c ∈ "typedef ".toList ++ form.type.chars, isInert c = true :=
    List.forall_mem_append.mpr ⟨List.all_eq_true.mp (by decide), form.type.isInert_of_mem⟩
  have hname : ∀ c ∈ ['(', '*'] ++ (form.name.chars ++ [')', '(']), isInert c = true :=
    List.forall_mem_append.mpr ⟨List.all_eq_true.mp (by decide), List.forall_mem_append.mpr
      ⟨form.name.isInert_of_mem, List.all_eq_true.mp (by decide)⟩⟩
  have hclose : ∀ c ∈ [')'], isInert c = true := List.all_eq_true.mp (by decide)
  have hshown : form.shown.text = "typedef ".toList ++ (form.type.chars ++
      (form.gap.shown ++ ('(' :: '*' :: (form.name.chars ++ (')' :: '(' ::
        (form.parameters.body Layout.shown ++ [')'])))))) := rfl
  unfold text
  generalize "typedef ".toList = front at htype hshown ⊢
  have htext : front ++ (form.type.chars ++ (form.gap.text ++ ('(' :: '*' :: (form.name.chars ++
        (')' :: '(' :: (form.parameters.body Layout.text ++ [')'])))))) ++ rest =
      (front ++ form.type.chars) ++ (form.gap.text ++ ((['(', '*'] ++
        (form.name.chars ++ [')', '('])) ++ (form.parameters.body Layout.text ++
          ([')'] ++ rest)))) := by
    simp only [List.append_assoc, List.cons_append, List.nil_append]
  rw [hshown, htext, visibleText_append_of_inert htype, visibleText_layout_append,
    visibleText_append_of_inert hname, LaidParameters.body, LaidText.visibleText_append,
    visibleText_append_of_inert hclose]
  simp only [LaidParameters.body, List.append_assoc, List.cons_append, List.nil_append]

/-- A function pointer type in front of any text is read with its parameters. -/
theorem callbacks_extract_append (marker : ExportMarker) (keepsComments : Bool)
    (form : LaidCallback (!keepsComments)) (rest : List Char) :
    ((withMarker marker keepsComments).extract (String.ofList (form.text ++ rest))).callbacks =
      form.leaves ::
        ((withMarker marker keepsComments).extract (String.ofList rest)).callbacks := by
  have hleaves : (⟨String.ofList (oneLine form.type.chars), String.ofList (oneLine form.name.chars),
      (withMarker marker keepsComments).parameters (oneLine form.parameters.shown.chars)⟩ :
        CallbackDecl) = form.leaves := by
    rw [oneLine_name, oneLine_returnType, LaidParameters.parameters_shown, leaves]
  change (withMarker marker keepsComments).callbacks
      ((withMarker marker keepsComments).visibleText
        (String.ofList (form.text ++ rest)).toList) =
    _ :: (withMarker marker keepsComments).callbacks
      ((withMarker marker keepsComments).visibleText (String.ofList rest).toList)
  rw [String.toList_ofList, String.toList_ofList, visibleText_text_append, ← hleaves]
  unfold callbacks
  exact pinned_callbackPattern.determined.map_scan_append (fun found found' he => by
    rw [Occurrence.leaf_congr he, Occurrence.leaf_congr he, Occurrence.part_congr he])
    (writes_callbackPattern.spells form.shown) _

end LaidCallback

/-- The parameters of a list are the declared ones, whatever stands around its
commas: the list on one line is read as them wherever it stands, and a function
or a function pointer type that carries it is read with them in front of any
text. -/
theorem parameters_laidOut (marker : ExportMarker) (keepsComments : Bool) :
    let grammar := withMarker marker keepsComments
    (∀ parameters : LaidParameters (!keepsComments),
      grammar.parameters (oneLine parameters.shown.chars) = parameters.leaves) ∧
    (∀ (form : LaidFunction (!keepsComments)) (rest : List Char),
      (grammar.extract (String.ofList (form.text marker ++ rest))).functions =
        form.leaves :: (grammar.extract (String.ofList rest)).functions) ∧
    (∀ (form : LaidCallback (!keepsComments)) (rest : List Char),
      (grammar.extract (String.ofList (form.text ++ rest))).callbacks =
        form.leaves :: (grammar.extract (String.ofList rest)).callbacks) :=
  ⟨LaidParameters.parameters_shown marker keepsComments,
    LaidFunction.functions_extract_append marker keepsComments,
    LaidCallback.callbacks_extract_append marker keepsComments⟩

/-- The qualifier is a type where one name stands behind it. -/
example :
    ((withMarker .standard false).extract
      "A_EXPORT int f(\n\tconst x\t,const  int*  y[4]\r\n, z z);").functions =
    [⟨"f", "int", [⟨"const", "x"⟩, ⟨"int*", "y[4]"⟩, ⟨"z", "z"⟩]⟩] := by
  decide +kernel

end HeaderExports
