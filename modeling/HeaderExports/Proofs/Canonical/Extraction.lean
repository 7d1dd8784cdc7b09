import HeaderExports.Processing
import HeaderExports.Proofs.Canonical.Fields
import HeaderExports.Proofs.Canonical.Readings
import HeaderExports.Proofs.Structs.Exclusive

/-!
# Canonical headers are extracted completely

Processing the text of a list of canonical declarations gives exactly what the
declarations declare, each kind in the order written and nothing else. No marker
is excluded and no name is, be it a keyword or the end of an announcing word.
-/

namespace HeaderExports.Canonical

open Grammar Pattern
open Text (isBlank isWord oneLine Kept kept_flatMap kept_of_not_blank kept_space_cons)

/-! ## Parts that are on one line already -/

section Separated

variable {δ : Type} {text : δ → List Char}

/-- Items behind commas are kept if they are kept behind a space. -/
theorem kept_separated (hs : ∀ item, Kept (' ' :: text item)) (items : List δ) :
    Kept ((items.map text).flatMap fun item => ',' :: ' ' :: item) := by
  have hcomma : Kept [','] := kept_of_not_blank (List.forall_mem_singleton.mpr (by decide))
  rw [List.flatMap_map]
  exact kept_flatMap (fun item => hcomma.append (hs item)) items

end Separated

/-- A parameter list is on one line. -/
theorem oneLine_listText (parameters : List Parameter) :
    oneLine (listText parameters) = listText parameters := by
  have htype (parameter : Parameter) : ∀ c ∈ parameter.type.chars, ¬isBlank c = true :=
    fun c hc => not_blank_of_inParameterName
      (inParameterName_of_type (parameter.type.inside_of_mem c hc))
  have hname (parameter : Parameter) : Kept (' ' :: parameter.name.chars) :=
    kept_space_cons parameter.name.nonempty
      fun c hc => not_blank_of_inParameterName (parameter.name.inside_of_mem c hc)
  have hspaced (parameter : Parameter) : Kept (' ' :: parameter.text) :=
    (kept_space_cons parameter.type.nonempty (htype parameter)).append (hname parameter)
  cases parameters with
  | nil => rfl
  | cons first more =>
    have hfirst : Kept first.text := (kept_of_not_blank (htype first)).append (hname first)
    exact (hfirst.append (kept_separated hspaced more)).oneLine_eq

/-- A value has a character if it is written. -/
theorem valueText_ne_nil (name : Name) (value : Bool × Name) :
    Member.valueText ⟨name, some value⟩ ≠ [] :=
  List.append_ne_nil_of_right_ne_nil _ value.2.nonempty

/-- The body of an enumeration is on one line. -/
theorem oneLine_membersText (members : List Member) :
    oneLine (membersText members) = membersText members := by
  have hequals : Kept [' ', '='] :=
    kept_space_cons (List.cons_ne_nil _ _) (List.forall_mem_singleton.mpr (by decide))
  have hspaced (member : Member) : Kept (' ' :: member.text) := by
    have hname := kept_space_cons member.name.nonempty (Name.not_blank member.name)
    have hvalue := member.not_blank_of_mem_valueText
    obtain ⟨name, _ | value⟩ := member
    · rwa [Member.text, Option.elim, List.append_nil]
    · exact hname.append (hequals.append (kept_space_cons (valueText_ne_nil name value) hvalue))
  cases members with
  | nil => rfl
  | cons first more =>
    have hall := (hspaced first).append (kept_separated hspaced more)
    exact hall [' ']

/-- The body of a struct is on one line. -/
theorem oneLine_fieldsText (fields : List Field) :
    oneLine (fieldsText fields) = fieldsText fields := by
  have hspaced (field : Field) : Kept (' ' :: field.text) := by
    have htype := kept_space_cons field.type.chars_ne_nil field.type.not_blank
    have hname : ∀ c ∈ field.nameText ++ [';'], ¬isBlank c = true :=
      List.forall_mem_append.mpr
        ⟨field.not_blank_of_mem_nameText, List.forall_mem_singleton.mpr (by decide)⟩
    have hne : field.nameText ++ [';'] ≠ [] :=
      List.append_ne_nil_of_right_ne_nil _ (List.cons_ne_nil _ _)
    exact htype.append (kept_space_cons hne hname)
  exact kept_flatMap hspaced fields [' ']

/-! ## What the scans find -/

section Scans

variable (marker : ExportMarker) (declarations : List Declaration)

/-- The words of the lines that a pattern reads, each at its place. -/
def occurrences (found : Declaration → Option (Marks Part)) : List (Occurrence Part) :=
  placed (Declaration.text marker) Declaration.ending found 0 declarations

/-- A scan of the text of a header finds what the pattern reads of each line. -/
theorem scan_headerText {p : Pattern Part} (hn : ∀ marks : Marks Part, ¬Spells p [] marks)
    {found : Declaration → Option (Marks Part)}
    (hr : ∀ (declaration : Declaration) (after : List Char), Fresh after →
      ReadsLine p (found declaration) (declaration.text marker) declaration.ending after) :
    p.scan (headerText marker declarations) = occurrences marker declarations found :=
  scanFrom_linesText (Declaration.text marker) Declaration.ending found hn
    (fun declaration others => hr declaration _ (fresh_headerText marker others)) 0 declarations

/-- What is made of the words of the lines is what is made of each line by its
marks. -/
theorem map_occurrences {α : Type} {f : Occurrence Part → α}
    (hf : ∀ found found' : Occurrence Part, found.marks = found'.marks → f found = f found')
    {found : Declaration → Option (Marks Part)} {leaves : Declaration → Option α}
    (hl : ∀ declaration,
      (found declaration).map (fun marks => f ⟨⟨0, 0⟩, marks⟩) = leaves declaration) :
    (occurrences marker declarations found).map f = declarations.filterMap leaves := by
  rw [occurrences, map_placed _ _ _ hf]
  exact List.filterMap_congr fun declaration _ => hl declaration

/-- The functions of a header are those declared. -/
theorem functions_headerText :
    (withMarker marker false).functions (headerText marker declarations) =
      (header declarations).functions := by
  have hscan := scan_headerText marker declarations (determined_functionPattern marker).nonempty
    fun declaration after _ => readsLine_function marker declaration
  unfold Grammar.functions
  change ((functionPattern marker).scan _).map _ = _
  rw [hscan]
  refine map_occurrences marker declarations (fun found found' he => ?_) fun declaration => ?_
  · rw [Occurrence.leaf_congr he, Occurrence.leaf_congr he, Occurrence.part_congr he]
  cases declaration with
  | function announcer type name parameters =>
    change some (⟨String.ofList (oneLine name.chars), String.ofList (oneLine type.chars),
      (withMarker marker false).parameters (oneLine (listText parameters))⟩ : FunctionDecl) = _
    rw [oneLine_name, oneLine_returnType, oneLine_listText, parameters_listText]
  | callback | constant | enum | struct | enumAlias | structAlias | aliasedStruct => rfl

/-- The constants of a header are those declared. -/
theorem constants_headerText :
    (withMarker marker false).constants (headerText marker declarations) =
      (header declarations).constants := by
  have hscan := scan_headerText marker declarations constant_ne_nil
    fun declaration after _ => readsLine_constant marker declaration
  unfold Grammar.constants
  change (constantPattern.scan _).map _ = _
  rw [hscan]
  refine map_occurrences marker declarations (fun found found' he => ?_) fun declaration => ?_
  · rw [Occurrence.leaf_congr he, Occurrence.leaf_congr he]
  cases declaration with
  | constant name value =>
    change some (⟨String.ofList (oneLine name.chars), String.ofList (oneLine value.chars)⟩ :
      ConstantDecl) = _
    rw [oneLine_name, oneLine_name]
  | function | callback | enum | struct | enumAlias | structAlias | aliasedStruct => rfl

/-- The function pointer types of a header are those declared. -/
theorem callbacks_headerText :
    (withMarker marker false).callbacks (headerText marker declarations) =
      (header declarations).callbacks := by
  have hscan := scan_headerText marker declarations pinned_callbackPattern.nonempty
    fun declaration after hf => readsLine_callback marker hf declaration
  unfold Grammar.callbacks
  change (callbackPattern.scan _).map _ = _
  rw [hscan]
  refine map_occurrences marker declarations (fun found found' he => ?_) fun declaration => ?_
  · rw [Occurrence.leaf_congr he, Occurrence.leaf_congr he, Occurrence.part_congr he]
  cases declaration with
  | callback type name parameters =>
    change some (⟨String.ofList (oneLine type.chars), String.ofList (oneLine name.chars),
      (withMarker marker false).parameters (oneLine (listText parameters))⟩ : CallbackDecl) = _
    rw [oneLine_name, oneLine_returnType, oneLine_listText, parameters_listText]
  | function | constant | enum | struct | enumAlias | structAlias | aliasedStruct => rfl

/-- The enumerations of a header are those declared. -/
theorem enums_headerText :
    (withMarker marker false).enums (headerText marker declarations) =
      (header declarations).enums := by
  have hscan := scan_headerText marker declarations pinned_enumPattern.nonempty
    fun declaration after hf => readsLine_enum marker hf declaration
  unfold Grammar.enums
  change (enumPattern.scan _).map _ = _
  rw [hscan]
  refine map_occurrences marker declarations (fun found found' he => ?_) fun declaration => ?_
  · rw [Occurrence.leaf_congr he, Occurrence.part_congr he]
  cases declaration with
  | enum name members =>
    change some (⟨String.ofList (oneLine name.chars),
      (withMarker marker false).enumerators (oneLine (membersText members))⟩ : EnumDecl) = _
    rw [oneLine_name, oneLine_membersText, enumerators_membersText]
  | function | constant | callback | struct | enumAlias | structAlias | aliasedStruct => rfl

/-- The type names for enumerations of a header are those declared. -/
theorem enumAliases_headerText :
    (withMarker marker false).enumAliases (headerText marker declarations) =
      (header declarations).enumAliases := by
  have hscan := scan_headerText marker declarations pinned_enumAliasPattern.nonempty
    fun declaration after _ => readsLine_enumAlias marker declaration
  unfold Grammar.enumAliases
  change (enumAliasPattern.scan _).map _ = _
  rw [hscan]
  refine map_occurrences marker declarations (fun found found' he => ?_) fun declaration => ?_
  · rw [Occurrence.leaf_congr he, Occurrence.leaf_congr he]
  cases declaration with
  | enumAlias tag name =>
    change some (⟨String.ofList (oneLine tag.chars), String.ofList (oneLine name.chars)⟩ :
      EnumAlias) = _
    rw [oneLine_name, oneLine_name]
  | function | constant | callback | enum | struct | structAlias | aliasedStruct => rfl

/-! ## Struct-like declarations -/

/-- Every declaration has a character. -/
theorem Declaration.text_ne_nil (declaration : Declaration) : declaration.text marker ≠ [] := by
  have hliteral (given : String) (hg : given.toList.isEmpty = false) (rest : List Char) :
      given.toList ++ rest ≠ [] := by
    rw [List.isEmpty_eq_false_iff] at hg
    exact List.append_ne_nil_of_left_ne_nil hg rest
  cases declaration with
  | function announcer => exact List.append_ne_nil_of_left_ne_nil announcer.nonempty _
  | constant => exact hliteral "#define " rfl _
  | enum => exact hliteral "enum " rfl _
  | struct => exact hliteral "struct " rfl _
  | callback | enumAlias | structAlias => exact hliteral "typedef " rfl _
  | aliasedStruct => exact hliteral "typedef struct" rfl _

/-- Nothing that is found is refused if it lies apart from what is claimed. -/
theorem filter_free_occurrences {found : Declaration → Option (Marks Part)}
    {taken : List (Occurrence Part)}
    (ha : ∀ x ∈ occurrences marker declarations found, ∀ y ∈ taken,
      x.span.stop ≤ y.span.start ∨ y.span.stop ≤ x.span.start) :
    (occurrences marker declarations found).filter
        (fun x => SpanSet.Free (spansOf taken) x.span) =
      occurrences marker declarations found := by
  refine List.filter_eq_self.mpr fun x hx => ?_
  rw [decide_eq_true_eq, SpanSet.free_iff]
  refine ⟨start_lt_stop_of_mem_placed _ _ _ (Declaration.text_ne_nil marker) hx, ?_⟩
  intro span hs
  obtain ⟨y, hy, rfl⟩ := List.mem_map.mp hs
  rcases ha x hx y hy with h | h
  · exact (SpanSet.meets_eq_false_of_le h).2
  · exact (SpanSet.meets_eq_false_of_le h).1

/-- What two patterns read lies apart if they read of no line both. -/
theorem occurrences_apart {found found' : Declaration → Option (Marks Part)}
    (hd : ∀ declaration, found declaration = none ∨ found' declaration = none) :
    ∀ x ∈ occurrences marker declarations found, ∀ y ∈ occurrences marker declarations found',
      x.span.stop ≤ y.span.start ∨ y.span.stop ≤ x.span.start :=
  fun _ hx _ hy => placed_apart _ _ found hd hx hy

/-- All struct-like declarations are kept, since each line holds one of them. -/
theorem structPlaces_headerText :
    let places := (withMarker marker false).structPlaces (headerText marker declarations)
    places.aliased = occurrences marker declarations Declaration.aliasedStructMarks ∧
      places.aliases = occurrences marker declarations Declaration.structAliasMarks ∧
      places.bare = occurrences marker declarations Declaration.structMarks := by
  have haliased := scan_headerText marker declarations determined_aliasedStructPattern.nonempty
    fun declaration after hf => readsLine_aliasedStruct marker hf declaration
  have haliases := scan_headerText marker declarations pinned_structAliasPattern.nonempty
    fun declaration after _ => readsLine_structAlias marker declaration
  have hbare := scan_headerText marker declarations pinned_structPattern.nonempty
    fun declaration after hf => readsLine_struct marker hf declaration
  have haliasesAliased := @occurrences_apart marker declarations Declaration.structAliasMarks
    Declaration.aliasedStructMarks fun declaration => by
      cases declaration with
      | structAlias => exact .inr rfl
      | _ => exact .inl rfl
  have hbareAliased := @occurrences_apart marker declarations Declaration.structMarks
    Declaration.aliasedStructMarks fun declaration => by
      cases declaration with
      | struct => exact .inr rfl
      | _ => exact .inl rfl
  have hbareAliases := @occurrences_apart marker declarations Declaration.structMarks
    Declaration.structAliasMarks fun declaration => by
      cases declaration with
      | struct => exact .inr rfl
      | _ => exact .inl rfl
  obtain ⟨h1, h2, h3, -, -⟩ :=
    structPlaces_phases (withMarker marker false) (headerText marker declarations)
  have hp1 := h1.trans ((congrArg _ haliased).trans
    (filter_free_occurrences marker declarations fun x _ y hy => absurd hy List.not_mem_nil))
  rw [hp1] at h2 h3
  have hp2 := h2.trans ((congrArg _ haliases).trans
    (filter_free_occurrences marker declarations haliasesAliased))
  rw [hp2] at h3
  have hp3 := h3.trans ((congrArg _ hbare).trans
    (filter_free_occurrences marker declarations fun x hx y hy =>
      (List.mem_append.mp hy).elim (hbareAliased x hx y) (hbareAliases x hx y)))
  exact ⟨hp1, hp2, hp3⟩

/-- The struct-like declarations of a header are those declared. -/
theorem structs_headerText :
    let places := (withMarker marker false).structPlaces (headerText marker declarations)
    places.bare.map (withMarker marker false).structDecl = (header declarations).structs ∧
      places.aliases.map (fun found => ⟨found.leaf .tag, found.leaf .name⟩) =
        (header declarations).structAliases ∧
      places.aliased.map (withMarker marker false).aliasedStructDecl =
        (header declarations).aliasedStructs := by
  obtain ⟨haliased, haliases, hbare⟩ := structPlaces_headerText marker declarations
  simp only
  rw [haliased, haliases, hbare]
  refine ⟨?_, ?_, ?_⟩
  · refine map_occurrences marker declarations (fun found found' he => ?_) fun declaration => ?_
    · rw [structDecl, structDecl, Occurrence.leaf_congr he, Occurrence.part_congr he]
    cases declaration with
    | struct name fields =>
      change some (⟨String.ofList (oneLine name.chars),
        (withMarker marker false).fields (oneLine (fieldsText fields))⟩ : StructDecl) = _
      rw [oneLine_name, oneLine_fieldsText, fields_fieldsText]
    | function | constant | callback | enum | enumAlias | structAlias | aliasedStruct => rfl
  · refine map_occurrences marker declarations (fun found found' he => ?_) fun declaration => ?_
    · rw [Occurrence.leaf_congr he, Occurrence.leaf_congr he]
    cases declaration with
    | structAlias tag name =>
      change some (⟨String.ofList (oneLine tag.chars), String.ofList (oneLine name.chars)⟩ :
        StructAlias) = _
      rw [oneLine_name, oneLine_name]
    | function | constant | callback | enum | struct | enumAlias | aliasedStruct => rfl
  · refine map_occurrences marker declarations (fun found found' he => ?_) fun declaration => ?_
    · rw [aliasedStructDecl, aliasedStructDecl, Occurrence.leaf_congr he, Occurrence.leaf_congr he,
        Occurrence.part_congr he]
    cases declaration with
    | aliasedStruct tag fields name =>
      have htag : oneLine (tag.elim [] fun tag => tag.chars) =
          tag.elim [] fun tag => tag.chars := by
        cases tag with
        | none => rfl
        | some tag => exact oneLine_name tag
      have hmarks : (Declaration.aliasedStruct tag fields name).aliasedStructMarks.map
          (fun marks => (withMarker marker false).aliasedStructDecl ⟨⟨0, 0⟩, marks⟩) =
          some ⟨String.ofList (oneLine (tag.elim [] fun tag => tag.chars)),
            String.ofList (oneLine name.chars),
            (withMarker marker false).fields (oneLine (fieldsText fields))⟩ := by
        cases tag <;> rfl
      rw [hmarks, htag, oneLine_name, oneLine_fieldsText, fields_fieldsText]
    | function | constant | callback | enum | struct | enumAlias | structAlias => rfl

end Scans

/-! ## The whole header -/

/-- What the text of a header declares is what is declared. -/
theorem declarations_headerText (marker : ExportMarker) (declarations : List Declaration) :
    (withMarker marker false).declarations (headerText marker declarations) =
      header declarations := by
  obtain ⟨hstructs, haliases, haliased⟩ := structs_headerText marker declarations
  unfold Grammar.declarations
  simp only
  rw [functions_headerText, constants_headerText, callbacks_headerText, enums_headerText,
    enumAliases_headerText, hstructs, haliases, haliased]

/-- A marker is accepted as it is written. -/
theorem choose_text (marker : ExportMarker) :
    Grammar.choose (some marker.text) = .ok (withMarker marker false) := by
  have haccepted : ExportMarker.ofString marker.text = .ok marker := by
    rw [ExportMarker.ofString, dif_pos marker.nonempty, dif_pos marker.fragment]
  rw [Grammar.choose, haccepted]

/-- Processing the text of any canonical declarations with any marker succeeds
and gives exactly what they declare, each kind in the order written. -/
theorem processText_headerText (marker : ExportMarker) (declarations : List Declaration) :
    processText (some marker.text) (String.ofList (headerText marker declarations)) =
      .ok (header declarations) := by
  have hvisible : (withMarker marker false).visibleText (headerText marker declarations) =
      headerText marker declarations :=
    (if_neg Bool.false_ne_true).trans (stripComments_headerText marker declarations)
  rw [processText, choose_text]
  change Except.ok ((withMarker marker false).extract _) = _
  rw [extract, String.toList_ofList, hvisible, declarations_headerText]

/-- Both sides for a header with one name, the qualifier. -/
example :
    let token (inside : Char → Bool) (hi : "const".toList.all inside = true) : Token inside :=
      ⟨⟨"const".toList, List.all_eq_true.mp hi⟩, (by decide : "const".toList ≠ [])⟩
    let n : Name := token isWord (by decide)
    let parameter : Parameter :=
      ⟨token inParameterType (by decide), token inParameterName (by decide)⟩
    let declarations : List Declaration :=
      [.function n ⟨true, n, 1⟩ n [parameter, parameter], .enum n [⟨n, some (true, n)⟩],
        .aliasedStruct none [⟨⟨n, 0⟩, 1, .array n n⟩] n]
    headerText .standard declarations =
        ("const_EXPORT const const* const(const const, const const);\n" ++
          "enum const \x7b const = -const \x7d;\n" ++
          "typedef struct \x7b const *const[const]; \x7d const;\n").toList ∧
      header declarations =
        ⟨[⟨"const", "const const*", [⟨"const", "const"⟩, ⟨"const", "const"⟩]⟩], [], [],
          [⟨"const", [⟨"const", "-const"⟩]⟩], [], [], [],
          [⟨"", "const", [⟨"const", "*const[const]"⟩]⟩]⟩ := by
  decide +kernel

end HeaderExports.Canonical
