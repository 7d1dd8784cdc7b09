import HeaderExports.Binding
import HeaderExports.Proofs.Canonical.Extraction
import HeaderExports.Proofs.Extraction.WellFormed
import Mathlib.Data.List.Chain
import Mathlib.Data.Set.List

/-!
# Import declarations determine their functions

The lines that import functions are a header of their own: under the marker
that ends the word in front of the types, each function is read back as it was
given. Nothing else is read, whatever the names are, since in these lines no
brace and no number sign stands, no parenthesis opens where one closes, and a
semicolon stands behind a parenthesis only.
-/

namespace HeaderExports

open Grammar Pattern
open Canonical (listText inListed inListed_of_mem_function)
open Text (oneLine exists_append_singleton forall_isInert stripComments_of_inert)

/-! ## Import lines written from forms -/

/-- What the import of a function is written from. -/
structure ImportForm where
  /-- The return type. -/
  type : ReturnType
  /-- The name. -/
  name : Name
  /-- The parameters. -/
  parameters : List Canonical.Parameter

/-- The function that is imported. -/
def ImportForm.function (form : ImportForm) : FunctionDecl :=
  ⟨String.ofList form.name.chars, String.ofList form.type.chars,
    form.parameters.map Canonical.Parameter.leaves⟩

/-- A function of the right shape is written from a form. -/
theorem FunctionDecl.WellFormed.exists_form {function : FunctionDecl}
    (hf : function.WellFormed) : ∃ form : ImportForm, form.function = function := by
  obtain ⟨name, returnType, parameters⟩ := function
  obtain ⟨⟨n, rfl⟩, ⟨type, rfl⟩, hparameters⟩ := hf
  have hmem : parameters ∈ Set.range (List.map Canonical.Parameter.leaves) := by
    rw [Set.range_list_map]
    intro parameter hm
    obtain ⟨⟨type, htype⟩, ⟨name, hname⟩⟩ := hparameters parameter hm
    exact ⟨⟨type, name⟩, by rw [Canonical.Parameter.leaves, ← htype, ← hname]⟩
  obtain ⟨written, rfl⟩ := hmem
  exact ⟨⟨type, n, written⟩, rfl⟩

/-- Functions of the right shape are written from forms. -/
theorem exists_forms {functions : List FunctionDecl}
    (hf : ∀ function ∈ functions, function.WellFormed) :
    ∃ forms : List ImportForm, forms.map ImportForm.function = functions := by
  have hmem : functions ∈ Set.range (List.map ImportForm.function) := by
    rw [Set.range_list_map]
    exact fun function hm => (hf function hm).exists_form
  exact hmem

/-- The marker under which import lines are read: all of the word in front of
a type but its first letter. -/
def externMarker : ExportMarker := ⟨"xtern", by decide, by decide⟩

/-- The declaration in an import as the function pattern takes it. -/
def ImportForm.announced (form : ImportForm) : FunctionForm where
  announcer := ⟨⟨['e'], List.forall_mem_singleton.mpr (by decide)⟩, List.cons_ne_nil _ _⟩
  type := form.type
  name := form.name
  list := Canonical.list form.parameters

/-- What stands in front of the announced function in an import. -/
def importFront : List Char := (importAttribute ++ "\npublic static ").toList

/-- The text of an import. -/
def ImportForm.text (form : ImportForm) : List Char :=
  importFront ++ form.announced.text externMarker

/-- The text of imports, each but the first one behind a line end. -/
def importsText : List ImportForm → List Char
  | [] => []
  | first :: more => first.text ++ more.flatMap fun form => '\n' :: form.text

/-- Items behind a separator are written one by one. -/
theorem intercalate_cons (separator item : List Char) (items : List (List Char)) :
    separator.intercalate (item :: items) = item ++ items.flatMap (separator ++ ·) := by
  induction items generalizing item with
  | nil => rw [List.intercalate_singleton, List.flatMap_nil, List.append_nil]
  | cons next items ih =>
    rw [List.intercalate_cons_cons, ih, List.flatMap_cons, List.append_assoc, List.append_assoc]

/-- The parameters of a declaration are written as a list. -/
theorem toList_parameters (parameters : List Canonical.Parameter) :
    (String.intercalate ", " ((parameters.map Canonical.Parameter.leaves).map
      Parameter.declaration)).toList = listText parameters := by
  have htext (parameter : Canonical.Parameter) :
      parameter.leaves.declaration.toList = parameter.text := by
    rw [Parameter.declaration, String.toList_append, String.toList_append, List.append_assoc]
    exact congrArg₂ (· ++ ' ' :: ·) String.toList_ofList String.toList_ofList
  have hitems : ((parameters.map Canonical.Parameter.leaves).map Parameter.declaration).map
      String.toList = parameters.map Canonical.Parameter.text := by
    rw [List.map_map, List.map_map]
    exact List.map_congr_left fun parameter _ => htext parameter
  rw [String.toList_intercalate, hitems, listText]
  cases parameters with
  | nil => rfl
  | cons first more => exact intercalate_cons _ _ _

/-- The characters of a function declared behind modifiers. -/
theorem toList_declared (modifiers returnType name list : String) :
    (modifiers ++ returnType ++ " " ++ name ++ "(" ++ list ++ ");").toList =
      modifiers.toList ++ (returnType.toList ++ (' ' :: (name.toList ++ ('(' ::
        (list.toList ++ [')', ';']))))) := by
  simp only [String.toList_append, List.append_assoc]
  rfl

/-- The last modifier of an imported function is the announcing word. -/
theorem toList_extern : "public static extern ".toList =
    "public static ".toList ++ (['e'] ++ (externMarker.text.toList ++ [' '])) := by
  decide +kernel

/-- The declaration of an imported function behind its modifiers is the
announced function. -/
theorem ImportForm.toList_externLine (form : ImportForm) :
    form.function.externLine.toList =
      "public static ".toList ++ form.announced.text externMarker := by
  have htype : form.function.returnType.toList = form.type.chars := String.toList_ofList
  have hname : form.function.name.toList = form.name.chars := String.toList_ofList
  have hlist : (String.intercalate ", " (form.function.parameters.map
      Parameter.declaration)).toList = listText form.parameters := toList_parameters _
  refine (toList_declared _ _ _ _).trans ?_
  rw [htype, hname, hlist, toList_extern]
  generalize "public static ".toList = front
  simp only [FunctionForm.text, announced, Canonical.list, List.append_assoc, List.cons_append,
    List.nil_append]

/-- An import is written on two lines. -/
theorem ImportForm.text_eq (form : ImportForm) :
    form.text = importAttribute.toList ++ '\n' :: form.function.externLine.toList := by
  have hfront : importFront = importAttribute.toList ++ '\n' :: "public static ".toList := by
    decide +kernel
  rw [toList_externLine, text, hfront, List.append_assoc, List.cons_append]

/-- The lines that import functions are the text of imports. -/
theorem toList_importText (forms : List ImportForm) :
    (importText (forms.map ImportForm.function)).toList = importsText forms := by
  have hmore (forms : List ImportForm) :
      ((importLines (forms.map ImportForm.function)).map String.toList).flatMap (['\n'] ++ ·) =
        forms.flatMap fun form => '\n' :: form.text := by
    induction forms with
    | nil => rfl
    | cons form forms ih =>
      rw [List.flatMap_cons, ← ih, form.text_eq, List.cons_append, List.append_assoc,
        List.cons_append]
      rfl
  rw [importText, String.toList_intercalate]
  cases forms with
  | nil => rfl
  | cons first more =>
    rw [importsText, ← hmore, first.text_eq, List.append_assoc, List.cons_append]
    exact intercalate_cons _ _ _

/-! ## What the text of imports holds -/

/-- The characters of imports. -/
def inImports (c : Char) : Bool := inListed c || c == '=' || c == '.'

/-- An import holds characters of imports only. -/
theorem ImportForm.inImports_of_mem (form : ImportForm) : ∀ c ∈ form.text, inImports c = true := by
  have hfront : importFront.all inImports = true := by decide +kernel
  refine List.forall_mem_append.mpr ⟨List.all_eq_true.mp hfront, fun c hc => ?_⟩
  rw [inImports, inListed_of_mem_function externMarker form.announced c hc, Bool.true_or,
    Bool.true_or]

/-- The text of imports holds characters of imports only. -/
theorem inImports_of_mem (forms : List ImportForm) :
    ∀ c ∈ importsText forms, inImports c = true := by
  cases forms with
  | nil => exact List.forall_mem_nil _
  | cons first more =>
    refine List.forall_mem_append.mpr ⟨first.inImports_of_mem, ?_⟩
    refine List.forall_mem_flatMap.mpr fun form _ => List.forall_mem_cons.mpr ⟨by decide, ?_⟩
    exact form.inImports_of_mem

/-- A foreign character stands in no text of imports. -/
theorem not_mem_importsText {c : Char} (hc : inImports c = false) (forms : List ImportForm) :
    c ∉ importsText forms :=
  not_mem_of_forall (inImports_of_mem forms) hc

/-- What may follow a character in imports: where a parenthesis closes none
opens, and a semicolon stands where one closes. -/
def MayFollow (c d : Char) : Prop := (c = ')' → d ≠ '(') ∧ (d = ';' → c = ')')

instance (c d : Char) : Decidable (MayFollow c d) := inferInstanceAs (Decidable (_ ∧ _))

/-- Where no parenthesis closes and no semicolon stands every character may
follow. -/
theorem isChain_mayFollow {text : List Char} (hp : ')' ∉ text) (hs : ';' ∉ text) :
    text.IsChain MayFollow := by
  refine List.Pairwise.isChain (List.pairwise_of_forall_mem_list fun c hc d hd => ?_)
  exact ⟨fun h => absurd (h ▸ hc) hp, fun h => absurd (h ▸ hd) hs⟩

/-- A text may stand behind another one if it begins with neither a parenthesis
that opens nor a semicolon. -/
theorem isChain_append_of_head {text next : List Char} (ht : text.IsChain MayFollow)
    (hn : next.IsChain MayFollow) (hd : ∀ d ∈ next.head?, d ≠ '(' ∧ d ≠ ';') :
    (text ++ next).IsChain MayFollow := by
  refine List.isChain_append.mpr ⟨ht, hn, fun c _ d hm => ?_⟩
  exact ⟨fun _ => (hd d hm).1, fun h => absurd h (hd d hm).2⟩

/-- In an import each character may follow the one in front. -/
theorem ImportForm.isChain_text (form : ImportForm) : form.text.IsChain MayFollow := by
  have hclose : ')' ∉ form.announced.head externMarker ++ '(' :: form.announced.list.chars :=
    List.not_mem_append
      (form.announced.not_mem_head externMarker (by decide) (by decide) (by decide) (by decide))
      (List.not_mem_cons_of_ne_of_not_mem (by decide)
        (form.announced.list.not_mem (by decide)))
  have hend : ';' ∉ form.announced.head externMarker ++ '(' :: form.announced.list.chars :=
    List.not_mem_append
      (form.announced.not_mem_head externMarker (by decide) (by decide) (by decide) (by decide))
      (List.not_mem_cons_of_ne_of_not_mem (by decide)
        (form.announced.list.not_mem (by decide)))
  have htext : form.text = importFront ++
      ((form.announced.head externMarker ++ '(' :: form.announced.list.chars) ++ [')', ';']) := by
    rw [text, FunctionForm.text_eq, List.append_assoc, List.cons_append]
  rw [htext]
  refine isChain_append_of_head (by decide +kernel)
    (isChain_append_of_head (isChain_mayFollow hclose hend) (by decide) ?_) ?_
  · intro d hd
    cases hd
    decide
  · intro d hd
    cases hd
    decide

/-- In the text of imports each character may follow the one in front. -/
theorem isChain_importsText (forms : List ImportForm) : (importsText forms).IsChain MayFollow := by
  have hnext (form : ImportForm) : ('\n' :: form.text).IsChain MayFollow := by
    refine isChain_append_of_head (List.isChain_singleton '\n') form.isChain_text fun d hd => ?_
    have hfirst : form.text.head? = some '[' := rfl
    cases hfirst.symm.trans hd
    decide
  have hmore (forms : List ImportForm) :
      (forms.flatMap fun form => '\n' :: form.text).IsChain MayFollow ∧
        ∀ d ∈ (forms.flatMap fun form => '\n' :: form.text).head?, d ≠ '(' ∧ d ≠ ';' := by
    induction forms with
    | nil => exact ⟨List.isChain_nil, fun d hd => by cases hd⟩
    | cons form forms ih =>
      refine ⟨isChain_append_of_head (hnext form) ih.1 ih.2, fun d hd => ?_⟩
      cases hd
      decide
  cases forms with
  | nil => exact List.isChain_nil
  | cons first more => exact isChain_append_of_head first.isChain_text (hmore more).1 (hmore more).2

/-! ## What is read in the text of imports -/

/-- The readings of the function pattern in the text of imports are the
announced functions. -/
theorem readings_importsText (forms : List ImportForm) :
    (functionPattern externMarker).readings (importsText forms) =
      forms.map fun form => form.announced.parts := by
  have hp : Pinned (functionPattern externMarker) := pinned_functionPattern (by decide)
  have hw := writes_functionPattern externMarker
  have hfront : (functionPattern externMarker).readings importFront = [] := by decide +kernel
  have hform (form : ImportForm) (rest : List Char) :
      (functionPattern externMarker).readings (form.text ++ rest) =
        form.announced.parts :: (functionPattern externMarker).readings rest := by
    have hinsert := hp.readings_insert (hw.spells form.announced) importFront rest
    rwa [hfront, ← List.append_assoc] at hinsert
  have hskip := readings_cons_of_forall (c := '\n') hp.nonempty fun word marks hs => by
    obtain ⟨form, he, -⟩ := hw.exists_of_spells hs
    have hfirst := inside_of_head form.announcer _ '\n' (congrArg List.head? he).symm
    exact absurd hfirst (by decide)
  have hmore (forms : List ImportForm) : (functionPattern externMarker).readings
      (forms.flatMap fun form => '\n' :: form.text) =
        forms.map fun form => form.announced.parts := by
    induction forms with
    | nil => exact readings_nil hp.nonempty
    | cons form forms ih =>
      rw [List.flatMap_cons, List.cons_append, hskip, hform, ih, List.map_cons]
  cases forms with
  | nil => exact readings_nil hp.nonempty
  | cons first more => rw [importsText, hform, hmore, List.map_cons]

/-- The functions of the text of imports are those that are imported. -/
theorem functions_importsText (forms : List ImportForm) :
    (withMarker externMarker false).functions (importsText forms) =
      forms.map ImportForm.function := by
  unfold functions
  rw [map_scan_eq fun found found' he => by
    rw [Occurrence.leaf_congr he, Occurrence.leaf_congr he, Occurrence.part_congr he]]
  change ((functionPattern externMarker).readings (importsText forms)).map _ = _
  rw [readings_importsText, List.map_map]
  refine List.map_congr_left fun form _ => ?_
  change (⟨String.ofList (oneLine form.name.chars), String.ofList (oneLine form.type.chars),
    (withMarker externMarker false).parameters (oneLine (listText form.parameters))⟩ :
      FunctionDecl) = form.function
  rw [oneLine_name, oneLine_returnType, Canonical.oneLine_listText, Canonical.parameters_listText,
    ImportForm.function]

/-- Nothing whose words hold a foreign character is found in the text of
imports. -/
theorem scan_importsText_of_mem {p : Pattern Part} {c : Char}
    (hp : ∀ (word : List Char) (marks : Marks Part), Spells p word marks → c ∈ word)
    (hc : inImports c = false) (forms : List ImportForm) : p.scan (importsText forms) = [] :=
  scan_eq_nil fun word marks hs hi => not_mem_importsText hc forms (hi.subset (hp word marks hs))

/-- Nothing whose words hold a character in front of one that may not follow is
found in the text of imports. -/
theorem scan_importsText_of_infix {p : Pattern Part}
    (hp : ∀ (word : List Char) (marks : Marks Part), Spells p word marks →
      ∃ c d, [c, d] <:+: word ∧ ¬MayFollow c d) (forms : List ImportForm) :
    p.scan (importsText forms) = [] := by
  refine scan_eq_nil fun word marks hs hi => ?_
  obtain ⟨c, d, hpair, hn⟩ := hp word marks hs
  obtain ⟨front, behind, he⟩ := hpair.trans hi
  have hchain := isChain_importsText forms
  rw [← he] at hchain
  exact hn (List.isChain_pair.mp hchain.left_of_append.right_of_append)

/-- Under the marker of imports nothing but functions is extracted from the text
of imports. -/
theorem declarations_importsText (forms : List ImportForm) :
    (withMarker externMarker false).declarations (importsText forms) =
      { Header.empty with functions := forms.map ImportForm.function } := by
  have hconstants : constantPattern.scan (importsText forms) = [] := by
    refine scan_importsText_of_mem (c := '#') (fun word marks hs => ?_) (by decide) forms
    obtain ⟨rest, rfl⟩ := Canonical.exists_of_spells_constant hs
    exact List.mem_cons_self
  have hbraced (inside : Char → Bool) (keyword : String) : (chain [Pattern.lit keyword, name,
      blanks, body inside, Pattern.lit ";"]).scan (importsText forms) = [] := by
    refine scan_importsText_of_mem (c := '\x7b') (fun word marks hs => ?_) (by decide) forms
    obtain ⟨form, rfl, -⟩ := (writes_braced keyword).exists_of_spells hs
    rw [BracedForm.text_eq]
    exact List.mem_append_right _ List.mem_cons_self
  have haliased : aliasedStructPattern.scan (importsText forms) = [] := by
    refine scan_importsText_of_mem (c := '\x7b') (fun word marks hs => ?_) (by decide) forms
    obtain ⟨form, rfl, -⟩ := writes_aliasedStructPattern.exists_of_spells hs
    rw [AliasedStructForm.text_eq]
    exact List.mem_append_right _ List.mem_cons_self
  have hcallbacks : callbackPattern.scan (importsText forms) = [] := by
    refine scan_importsText_of_infix (fun word marks hs => ⟨')', '(', ?_, by decide⟩) forms
    obtain ⟨form, rfl, -⟩ := writes_callbackPattern.exists_of_spells hs
    refine ⟨form.head ++ '(' :: '*' :: form.name.chars, form.list.chars ++ [')'], ?_⟩
    rw [form.text_eq, form.tail_eq]
    simp only [List.append_assoc, List.cons_append, List.nil_append]
  have haliases (keyword : String) : (aliasPattern keyword).scan (importsText forms) = [] := by
    refine scan_importsText_of_infix (fun word marks hs => ?_) forms
    obtain ⟨form, rfl, -⟩ := (writes_aliasPattern keyword).exists_of_spells hs
    obtain ⟨front, c, hname, hc⟩ := exists_append_singleton form.name.nonempty
    have hword := form.name.inside_of_mem c hc
    refine ⟨c, ';', ⟨aliasFront keyword ++ ' ' :: (form.tag.chars ++ ' ' :: front), [], ?_⟩,
      fun h => ?_⟩
    · rw [form.text_eq_head, AliasForm.head, hname]
      simp only [List.append_assoc, List.cons_append, List.nil_append, List.append_nil]
    · rw [h.2 rfl] at hword
      exact absurd hword (by decide)
  obtain ⟨haliased', haliases', hbare, -⟩ :=
    structPlaces_phases (withMarker externMarker false) (importsText forms)
  refine (Header.mk.injEq ..).mpr ⟨functions_importsText forms, ?_, ?_, ?_, ?_, ?_, ?_, ?_⟩
  · exact congrArg (List.map _) hconstants
  · exact congrArg (List.map _) hcallbacks
  · exact congrArg (List.map _) (hbraced inEnumBody "enum ")
  · exact congrArg (List.map _) (haliases "enum")
  · exact congrArg (List.map _) (hbare.trans
      (congrArg (List.filter _) (hbraced inStructBody "struct ")))
  · exact congrArg (List.map _) (haliases'.trans (congrArg (List.filter _) (haliases "struct")))
  · exact congrArg (List.map _) (haliased'.trans (congrArg (List.filter _) haliased))

/-- Functions of the right shape are read back from the lines that import them,
and nothing else is. -/
theorem processText_importText_of_wellFormed {functions : List FunctionDecl}
    (hf : ∀ function ∈ functions, function.WellFormed) :
    processText (some "xtern") (importText functions) =
      .ok { Header.empty with functions := functions } := by
  obtain ⟨forms, rfl⟩ := exists_forms hf
  have hvisible : (withMarker externMarker false).visibleText (importsText forms) =
      importsText forms :=
    stripComments_of_inert (forall_isInert (not_mem_importsText (by decide) forms)
      (not_mem_importsText (by decide) forms) (not_mem_importsText (by decide) forms))
  have hchoose := Canonical.choose_text externMarker
  change (Grammar.choose (some externMarker.text)).map _ = _
  rw [hchoose]
  change Except.ok ((withMarker externMarker false).extract _) = _
  rw [extract, toList_importText, hvisible, declarations_importsText]

/-- Whatever functions are selected by name from what a text declares, the lines
that import them determine them: read under the marker of imports they give the
selected functions, in their order and as often as they were selected, with their
types and parameters, and nothing else. -/
theorem processText_importText (marker : ExportMarker) (keepsComments : Bool) (content : String)
    (names : List String) :
    let selected := ((withMarker marker keepsComments).extract content).selectFunctions names
    processText (some "xtern") (importText selected) =
      .ok { Header.empty with functions := selected } := by
  refine processText_importText_of_wellFormed fun function hm => ?_
  obtain ⟨name, -, hfound⟩ := List.mem_filterMap.mp hm
  exact wellFormed_functions marker keepsComments _ function (List.mem_of_find?_eq_some hfound)

end HeaderExports
