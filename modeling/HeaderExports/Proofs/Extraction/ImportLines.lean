import HeaderExports.Proofs.Extraction.Imports

/-!
# Names asked for and the lines they give

The imports of functions asked for by name are lines that stand one below the
other. No line end stands inside a line, since none stands in what a header
declares, so the lines are found again where the text is broken. What is
imported is seen on a line, too: functions that are declared by the same line
are the same.
-/

namespace HeaderExports

open Grammar
open Text (isLineBreaking_of_mem_oneLine oneLine)

/-- Names asked for of a header and the lines that import them: a name that the
header knows gives the attribute and the declaration of the first function of
that name, any other name gives no line. -/
inductive Header.Imports (header : Header) : List String → List String → Prop where
  /-- No name gives no line. -/
  | nil : header.Imports [] []
  /-- A known name gives two lines. -/
  | known {front behind : List FunctionDecl} {function : FunctionDecl} {names lines : List String} :
      header.functions = front ++ function :: behind →
      (∀ earlier ∈ front, earlier.name ≠ function.name) → header.Imports names lines →
      header.Imports (function.name :: names) (importAttribute :: function.externLine :: lines)
  /-- An unknown name gives no line. -/
  | unknown {name : String} {names lines : List String} :
      (∀ function ∈ header.functions, function.name ≠ name) → header.Imports names lines →
      header.Imports (name :: names) lines

/-- The lines of a text. -/
def linesOf (text : String) : List String := (text.toList.splitOn '\n').map String.ofList

/-! ## Selected functions -/

namespace Header

variable (header : Header)

/-- The function found for a name is the first one of that name. -/
theorem find?_name_eq_some_iff {name : String} {function : FunctionDecl} :
    header.functions.find? (·.name = name) = some function ↔
      function.name = name ∧ ∃ front behind, header.functions = front ++ function :: behind ∧
        ∀ earlier ∈ front, earlier.name ≠ name := by
  simp only [List.find?_eq_some_iff_append, decide_eq_true_eq, Bool.not_eq_true',
    decide_eq_false_iff_not, ne_eq]

/-- No function is found for a name exactly if none has that name. -/
theorem find?_name_eq_none_iff {name : String} :
    header.functions.find? (·.name = name) = none ↔
      ∀ function ∈ header.functions, function.name ≠ name := by
  simp only [List.find?_eq_none, decide_eq_true_eq, ne_eq]

/-- The lines of a name stand in front of those of further names. -/
theorem importLines_selectFunctions_cons (name : String) (names : List String) :
    importLines (header.selectFunctions (name :: names)) =
      ((header.functions.find? (·.name = name)).elim [] FunctionDecl.importLines) ++
        importLines (header.selectFunctions names) := by
  simp only [selectFunctions, List.filterMap_cons]
  cases header.functions.find? (·.name = name) with
  | none => rfl
  | some function => rfl

/-- The imports of names are the lines of the functions that they select. -/
theorem imports_iff {names lines : List String} :
    header.Imports names lines ↔ importLines (header.selectFunctions names) = lines := by
  constructor
  · intro h
    induction h with
    | nil => rfl
    | known hsplit hfront _ ih =>
      have hfind := header.find?_name_eq_some_iff.mpr ⟨rfl, _, _, hsplit, hfront⟩
      rw [importLines_selectFunctions_cons, hfind, ih]
      rfl
    | unknown hnone _ ih =>
      rw [importLines_selectFunctions_cons, header.find?_name_eq_none_iff.mpr hnone, ih]
      rfl
  · rintro rfl
    induction names with
    | nil => exact .nil
    | cons name names ih =>
      rw [importLines_selectFunctions_cons]
      cases hfind : header.functions.find? (·.name = name) with
      | none => exact .unknown (header.find?_name_eq_none_iff.mp hfind) ih
      | some function =>
        obtain ⟨rfl, front, behind, hsplit, hfront⟩ := header.find?_name_eq_some_iff.mp hfind
        exact .known hsplit hfront ih

/-- No function is selected exactly if no name is known. -/
theorem selectFunctions_eq_nil_iff (names : List String) :
    header.selectFunctions names = [] ↔
      ∀ name ∈ names, ∀ function ∈ header.functions, function.name ≠ name := by
  simp only [selectFunctions, List.filterMap_eq_nil_iff, find?_name_eq_none_iff]

end Header

/-! ## Lines of imports -/

/-- Some lines import any function. -/
theorem importLines_ne_nil {functions : List FunctionDecl} (hf : functions ≠ []) :
    importLines functions ≠ [] := by
  rw [← List.length_pos_iff, length_importLines]
  have hlength := List.length_pos_iff.mpr hf
  omega

/-- The imports of two lists of functions are joined by a line end. -/
theorem importText_append {functions more : List FunctionDecl} (hf : functions ≠ [])
    (hm : more ≠ []) :
    importText (functions ++ more) = importText functions ++ "\n" ++ importText more := by
  have hlines : importLines (functions ++ more) = importLines functions ++ importLines more :=
    List.flatMap_append
  rw [importText, hlines, String.intercalate_append_of_ne_nil (importLines_ne_nil hf)
    (importLines_ne_nil hm)]
  rfl

/-- The text is empty exactly if no function is imported. -/
theorem importText_eq_empty_iff {functions : List FunctionDecl} :
    importText functions = "" ↔ functions = [] := by
  refine ⟨fun h => ?_, fun h => h ▸ rfl⟩
  cases functions with
  | nil => rfl
  | cons function more =>
    have hcons := String.intercalate_cons_of_ne_nil (s := "\n") (t := importAttribute)
      (List.cons_ne_nil function.externLine (importLines more))
    have hempty := String.append_eq_empty_iff.mp (hcons.symm.trans h)
    exact absurd (String.append_eq_empty_iff.mp hempty.1).2 (by decide)

/-- A declaration whose parts are on one line is on one line. -/
theorem newline_not_mem_declared {modifiers returnType name list : String}
    (hmodifiers : '\n' ∉ modifiers.toList) (htype : '\n' ∉ returnType.toList)
    (hname : '\n' ∉ name.toList) (hlist : '\n' ∉ list.toList) :
    '\n' ∉ (modifiers ++ returnType ++ " " ++ name ++ "(" ++ list ++ ");").toList := by
  rw [toList_declared]
  simp only [List.mem_append, List.mem_cons, List.not_mem_nil, not_or, hmodifiers, htype, hname,
    hlist, not_false_eq_true, true_and, and_true]
  decide

/-- The declaration of a function of the right shape is on one line. -/
theorem FunctionDecl.WellFormed.newline_not_mem {function : FunctionDecl}
    (hf : function.WellFormed) : '\n' ∉ function.externLine.toList := by
  obtain ⟨form, rfl⟩ := hf.exists_form
  have hline {leaf : String} {text : List Char} (hleaf : leaf.toList = text)
      (ht : oneLine text = text) : '\n' ∉ leaf.toList := fun hm =>
    absurd (isLineBreaking_of_mem_oneLine (ht.symm ▸ hleaf ▸ hm)) (by decide)
  exact newline_not_mem_declared (by decide +kernel)
    (hline String.toList_ofList (oneLine_returnType form.type))
    (hline String.toList_ofList (oneLine_name form.name))
    (hline (toList_parameters form.parameters) (Canonical.oneLine_listText form.parameters))

/-- The lines of the text that imports functions of the right shape are the
lines that import them. -/
theorem linesOf_importText {functions : List FunctionDecl} (hne : functions ≠ [])
    (hf : ∀ function ∈ functions, function.WellFormed) :
    linesOf (importText functions) = importLines functions := by
  have hlines : ∀ line ∈ (importLines functions).map String.toList, '\n' ∉ line := by
    rw [List.forall_mem_map]
    refine List.forall_mem_flatMap.mpr fun function hm => ?_
    exact List.forall_mem_cons.mpr ⟨by decide +kernel,
      List.forall_mem_singleton.mpr (hf function hm).newline_not_mem⟩
  have hnonempty : (importLines functions).map String.toList ≠ [] :=
    mt List.map_eq_nil_iff.mp (importLines_ne_nil hne)
  have hsplit := List.splitOn_intercalate '\n' hlines hnonempty
  rw [linesOf, importText, String.toList_intercalate]
  change ((['\n'].intercalate _).splitOn '\n').map _ = _
  rw [hsplit, List.map_map]
  exact (List.map_congr_left fun line _ => String.ofList_toList).trans (List.map_id _)

/-- Functions of the right shape that are declared by the same line are the same:
the import of each of them is read back as the function. -/
theorem FunctionDecl.WellFormed.eq_of_externLine_eq {function other : FunctionDecl}
    (hf : function.WellFormed) (ho : other.WellFormed)
    (h : function.externLine = other.externLine) : function = other := by
  have hlines : FunctionDecl.importLines function = FunctionDecl.importLines other :=
    congrArg (fun line => [importAttribute, line]) h
  have htext : importText [function] = importText [other] := by
    rw [importText, importText, HeaderExports.importLines, HeaderExports.importLines,
      List.flatMap_singleton, List.flatMap_singleton, hlines]
  have hread := processText_importText_of_wellFormed (List.forall_mem_singleton.mpr hf)
  rw [htext, processText_importText_of_wellFormed (List.forall_mem_singleton.mpr ho)] at hread
  have hheader := Except.ok.inj hread
  exact List.singleton_injective (congrArg Header.functions hheader).symm

/-! ## Functions asked for by name -/

/-- Names asked for of an extracted header, whatever they are and however often
they come, are answered line by line. The text is empty exactly if no name is
known, else its lines are those of the selected functions, which are two for each
name that the header knows, from the first function of that name, and none for any
other name. Names asked for in two batches are answered batch by batch. And among
the functions of all headers each has a declaration of its own. -/
theorem importText_selectFunctions (marker : ExportMarker) (keepsComments : Bool)
    (content : String) :
    let header := (withMarker marker keepsComments).extract content
    let text (names : List String) := importText (header.selectFunctions names)
    (∀ names, (text names = "" ↔
        ∀ name ∈ names, ∀ function ∈ header.functions, function.name ≠ name) ∧
      (text names ≠ "" → linesOf (text names) = importLines (header.selectFunctions names)) ∧
      ∀ lines, header.Imports names lines ↔ importLines (header.selectFunctions names) = lines) ∧
    (∀ names more, text names ≠ "" → text more ≠ "" →
      text (names ++ more) = text names ++ "\n" ++ text more) ∧
    ∀ otherMarker keepsOtherComments otherContent, ∀ function ∈ header.functions,
      ∀ other ∈ ((withMarker otherMarker keepsOtherComments).extract otherContent).functions,
        function.externLine = other.externLine → function = other := by
  intro header text
  have hselected (names : List String) :
      ∀ function ∈ header.selectFunctions names, function.WellFormed := by
    intro function hm
    obtain ⟨name, -, hfound⟩ := List.mem_filterMap.mp hm
    exact wellFormed_functions marker keepsComments _ function (List.mem_of_find?_eq_some hfound)
  refine ⟨fun names => ⟨?_, fun hne => ?_, fun lines => header.imports_iff⟩,
    fun names more hn hm => ?_, ?_⟩
  · exact importText_eq_empty_iff.trans (header.selectFunctions_eq_nil_iff names)
  · exact linesOf_importText (mt importText_eq_empty_iff.mpr hne) (hselected names)
  · simp only [text, Header.selectFunctions_append]
    exact importText_append (mt importText_eq_empty_iff.mpr hn) (mt importText_eq_empty_iff.mpr hm)
  · intro otherMarker keepsOtherComments otherContent function hf other ho h
    exact (wellFormed_functions _ _ _ function hf).eq_of_externLine_eq
      (wellFormed_functions _ _ _ other ho) h

/-- Names asked for twice, and one that is not known, of a header that declares a
name twice, and a function of another header that is declared by the same line. -/
theorem importText_selectFunctions_of_repeated :
    let content := "A_EXPORT int f(int x);\nA_EXPORT void f(void);\nA_EXPORT char* g();"
    let header := (withMarker .standard false).extract content
    let marker : ExportMarker := ⟨"_API", by decide, by decide⟩
    let otherHeader := (withMarker marker true).extract "M_API int f(  int x );"
    let text (names : List String) := importText (header.selectFunctions names)
    let names := ["g", "h", "f", "f"]
    let function : FunctionDecl := ⟨"f", "int", [⟨"int", "x"⟩]⟩
    let other := otherHeader.functions.headD ⟨"", "", []⟩
    (text names ≠ "" ∧ text ["f"] ≠ "" ∧ function ∈ header.functions ∧
        other ∈ otherHeader.functions ∧ function.externLine = other.externLine) ∧
      linesOf (text names) = importLines (header.selectFunctions names) ∧
      header.Imports names
        [importAttribute, "public static extern char* g();",
          importAttribute, "public static extern int f(int x);",
          importAttribute, "public static extern int f(int x);"] ∧
      text (names ++ ["f"]) = text names ++ "\n" ++ text ["f"] ∧ function = other := by
  intro content header marker otherHeader text names function other
  have hnames : text names ≠ "" := by decide +kernel
  have hmore : text ["f"] ≠ "" := by decide +kernel
  have hfunction : function ∈ header.functions := by decide +kernel
  have hother : other ∈ otherHeader.functions := by decide +kernel
  have hline : function.externLine = other.externLine := by decide +kernel
  obtain ⟨hlines, hjoin, hsame⟩ := importText_selectFunctions .standard false content
  exact ⟨⟨hnames, hmore, hfunction, hother, hline⟩, (hlines names).2.1 hnames,
    ((hlines names).2.2 _).mpr (by decide +kernel), hjoin names ["f"] hnames hmore,
    hsame marker true _ function hfunction other hother hline⟩

end HeaderExports
