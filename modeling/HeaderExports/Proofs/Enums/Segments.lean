import HeaderExports.Proofs.Extraction.Barrier
import HeaderExports.Proofs.Extraction.Members
import HeaderExports.Proofs.Grammar.Preferred
import HeaderExports.Proofs.Structs.Nested

/-!
# Members of an enumeration and the segments of its body

The pattern of members does not look at commas, but none of its words reaches over
one: a body is read segment by segment. A segment has a member exactly if it has a
word, and the first one is named by the first word. What is left of the segment
behind that member is read as more members. So each member comes from a segment of
its own exactly if every segment that has a word is written as a member.
-/

namespace HeaderExports

open Grammar Pattern
open Text (eq_flatMap_intercalate isBlank isWord kept_of_not_blank
  not_isWord_of_isBlank oneLine oneLine_append)

/-! ## Segments -/

/-- A text without a word. -/
def Wordless (text : List Char) : Prop := ∀ c ∈ text, isWord c = false

instance (text : List Char) : Decidable (Wordless text) :=
  inferInstanceAs (Decidable (∀ c ∈ text, isWord c = false))

/-- The first word of a text, empty if there is none. -/
def firstWord (text : List Char) : List Char := (text.dropWhile (!isWord ·)).takeWhile isWord

/-- What stands between the commas of a body, each segment put on one line. -/
def segments (body : List Char) : List (List Char) := (body.splitOn ',').map oneLine

/-- Both parts of a text without a word have none. -/
theorem wordless_append {left right : List Char} :
    Wordless (left ++ right) ↔ Wordless left ∧ Wordless right :=
  List.forall_mem_append

/-- A text without a word does not go on with one. -/
theorem Wordless.not_isWord_of_head {text : List Char} (ht : Wordless text) :
    ∀ c ∈ text.head?, isWord c = false :=
  fun c hc => ht c (List.mem_of_head? hc)

/-- Blanks are no word. -/
theorem wordless_blanks (gap : Stretch isBlank) : Wordless gap.chars :=
  fun c hc => (not_isWord_of_isBlank (gap.inside_of_mem c hc)).1

/-- A name is a word. -/
theorem not_wordless_name (name : Name) : ¬Wordless name.chars := by
  intro hw
  obtain ⟨c, hc⟩ := List.exists_mem_of_ne_nil _ name.nonempty
  have hin := name.inside_of_mem c hc
  rw [hw c hc] at hin
  exact Bool.noConfusion hin

/-- A text that begins with a word character begins with a word. -/
theorem exists_name_append {c : Char} (hc : isWord c = true) (text : List Char) :
    ∃ (name : Name) (rest : List Char), c :: text = name.chars ++ rest ∧
      ∀ d ∈ rest.head?, isWord d = false := by
  have hall : ∀ d ∈ (c :: text).takeWhile isWord, isWord d = true :=
    List.all_eq_true.mp List.all_takeWhile
  have hne : (c :: text).takeWhile isWord ≠ [] := by
    rw [List.takeWhile_cons_of_pos hc]
    exact List.cons_ne_nil _ _
  refine ⟨⟨⟨_, hall⟩, hne⟩, _, List.takeWhile_append_dropWhile.symm, fun d hd => ?_⟩
  have hend := List.head?_dropWhile_not isWord (c :: text)
  rwa [hd] at hend

/-- A text has no word, or a first one. -/
theorem wordless_or_exists_name (text : List Char) :
    Wordless text ∨ ∃ (lead : List Char) (name : Name) (rest : List Char),
      text = lead ++ (name.chars ++ rest) ∧ Wordless lead ∧ ∀ c ∈ rest.head?, isWord c = false := by
  have hsplit : text = text.takeWhile (!isWord ·) ++ text.dropWhile (!isWord ·) :=
    List.takeWhile_append_dropWhile.symm
  have hlead : Wordless (text.takeWhile (!isWord ·)) := fun c hc =>
    Bool.not_eq_eq_eq_not.mp (List.all_eq_true.mp List.all_takeWhile c hc)
  cases hbehind : text.dropWhile (!isWord ·) with
  | nil =>
    rw [hbehind, List.append_nil] at hsplit
    exact .inl (hsplit ▸ hlead)
  | cons c behind =>
    have hc := List.head?_dropWhile_not (!isWord ·) text
    rw [hbehind] at hc
    obtain ⟨name, rest, he, hr⟩ := exists_name_append (Bool.not_eq_eq_eq_not.mp hc) behind
    rw [hbehind, he] at hsplit
    exact .inr ⟨_, name, rest, hsplit, hlead, hr⟩

/-- The first word of a text stands behind what is no word. -/
theorem firstWord_append {lead : List Char} (hl : Wordless lead) (name : Name) {rest : List Char}
    (hr : ∀ c ∈ rest.head?, isWord c = false) :
    firstWord (lead ++ (name.chars ++ rest)) = name.chars := by
  have hlead : ∀ c ∈ lead, (!isWord c) = true := fun c hc => by rw [hl c hc, Bool.not_false]
  have hname : (name.chars ++ rest).dropWhile (!isWord ·) = name.chars ++ rest := by
    obtain ⟨c, word, hword⟩ := List.exists_cons_of_ne_nil name.nonempty
    have hc : isWord c = true := name.inside_of_mem c (hword ▸ List.mem_cons_self)
    rw [hword, List.cons_append, List.dropWhile_cons, hc, Bool.not_true, if_neg Bool.false_ne_true]
  have hend : rest.takeWhile isWord = [] := by
    cases rest with
    | nil => rfl
    | cons c rest => rw [List.takeWhile_cons, hr c rfl, if_neg Bool.false_ne_true]
  rw [firstWord, List.dropWhile_append_of_pos hlead, hname,
    List.takeWhile_append_of_pos name.inside_of_mem, hend, List.append_nil]

/-- A member with nothing around it but what is no word. -/
def IsLone (form : EnumeratorForm) (segment : List Char) : Prop :=
  ∃ lead tail, segment = lead ++ (form.text ++ tail) ∧ Wordless lead ∧ Wordless tail

/-- A segment that is written as a member, with blanks around it. -/
def IsMember (segment : List Char) : Prop :=
  ∃ (lead tail : Stretch isBlank) (form : EnumeratorForm),
    segment = lead.chars ++ (form.text ++ tail.chars)

/-- How a segment is read as members. -/
structure SegmentRead (segment : List Char) (members : List Enumerator) : Prop where
  /-- A segment has a member exactly if it has a word. -/
  eq_nil_iff : members = [] ↔ Wordless segment
  /-- A lone member is read as it is declared. -/
  lone : ∀ form, IsLone form segment → members = [form.leaves]
  /-- Every other segment with a word has more than one member. -/
  more : ¬Wordless segment → (∀ form, ¬IsLone form segment) → 2 ≤ members.length
  /-- The first member is named by the first word. -/
  head : ∀ member ∈ members.head?, member.name.toList = firstWord segment

/-- Members come from segments in order, at most one from each. The segment is written
as a member, and its first word is the name. -/
def ReadFrom (segments : List (List Char)) (members : List Enumerator) : Prop :=
  ∃ chosen, chosen.Sublist segments ∧
    List.Forall₂ (fun segment member => IsMember segment ∧ member.name.toList = firstWord segment)
      chosen members

/-- A segment that is written as a member has a lone member. -/
theorem IsMember.exists_isLone {segment : List Char} (hs : IsMember segment) :
    ∃ form, IsLone form segment := by
  obtain ⟨lead, tail, form, rfl⟩ := hs
  exact ⟨form, lead.chars, tail.chars, rfl, wordless_blanks lead, wordless_blanks tail⟩

/-- A segment with a member has a word. -/
theorem IsLone.not_wordless {form : EnumeratorForm} {segment : List Char}
    (hs : IsLone form segment) : ¬Wordless segment := by
  obtain ⟨lead, tail, rfl, -, -⟩ := hs
  intro hw
  have htext := (wordless_append.mp (wordless_append.mp hw).2).1
  exact not_wordless_name form.name (wordless_append.mp htext).1

namespace Grammar

/-! ## The member at a word -/

/-- What the pattern of members has behind the name. -/
def behindName : Pattern Part :=
  chain [blanks, optional (chain [Pattern.lit "=", blanks,
    .mark .value (chain [optional (Pattern.lit "-"), blanks, word])])]

/-- What stands behind a name is read in some way, since all of it may be passed over. -/
theorem exists_first?_behindName (text : List Char) : ∃ run, first? behindName text = some run := by
  have hempty : Spells behindName [] [] :=
    spells_seq_iff.mpr ⟨[], [], [], [], .starStop,
      spells_seq_iff.mpr ⟨[], [], [], [], .altRight .empty, .empty, rfl, rfl⟩, rfl, rfl⟩
  exact Option.isSome_iff_exists.mp ((first?_isSome_iff _ text).mpr ⟨[], text, [], rfl, hempty⟩)

/-- At a whole word a member is read, and the word is its name. -/
theorem exists_first?_enumerator (name : Name) {rest : List Char}
    (hr : ∀ c ∈ rest.head?, isWord c = false) :
    ∃ (form : EnumeratorForm) (behind : List Char), name.chars ++ rest = form.text ++ behind ∧
      first? enumeratorPattern (name.chars ++ rest) = some (form.parts, behind) ∧
      form.name.chars = name.chars := by
  obtain ⟨run, hrun⟩ := exists_first?_behindName rest
  have hread : first? enumeratorPattern (name.chars ++ rest) =
      some ((.name, name.chars) :: run.1, run.2) :=
    prefers_name name hr (first? behindName) run hrun
  obtain ⟨text, he, hs⟩ := spells_of_first? hread
  obtain ⟨form, rfl, hparts⟩ := writes_enumeratorPattern.exists_of_spells hs
  have hname : name.chars = form.name.chars := (Prod.mk.inj (List.cons.inj hparts).1).2
  exact ⟨form, run.2, he, hread.trans (congrArg (fun marks => some (marks, run.2)) hparts),
    hname.symm⟩

section Reading

variable (marker : ExportMarker) (keepsComments : Bool)

/-- Where a member is read it is extracted in front of the others. -/
theorem enumerators_of_first? {form : EnumeratorForm} {rest : List Char}
    (hr : first? enumeratorPattern (form.text ++ rest) = some (form.parts, rest)) :
    (withMarker marker keepsComments).enumerators (form.text ++ rest) =
      form.leaves :: (withMarker marker keepsComments).enumerators rest := by
  obtain ⟨forms, hforms⟩ :=
    exists_readings writes_enumeratorPattern EnumeratorForm.text_ne_nil rest
  have hreadings := readings_append_of_first? not_spells_enumerator.1 hr
  rw [hforms, ← List.map_cons] at hreadings
  rw [enumerators_of_readings marker keepsComments hreadings,
    enumerators_of_readings marker keepsComments hforms, List.map_cons]

/-- What is no word is passed over. -/
theorem enumerators_append_of_wordless {lead : List Char} (hl : Wordless lead)
    (rest : List Char) :
    (withMarker marker keepsComments).enumerators (lead ++ rest) =
      (withMarker marker keepsComments).enumerators rest := by
  obtain ⟨forms, hforms⟩ :=
    exists_readings writes_enumeratorPattern EnumeratorForm.text_ne_nil rest
  have hreadings := readings_append_of_forall not_spells_enumerator.1
    (fun c hc => not_spells_enumerator.2 c (hl c hc)) rest
  rw [enumerators_of_readings marker keepsComments (hreadings.trans hforms),
    enumerators_of_readings marker keepsComments hforms]

/-- The empty text has no members. -/
theorem enumerators_nil : (withMarker marker keepsComments).enumerators [] = [] :=
  @enumerators_of_readings marker keepsComments [] [] (readings_nil not_spells_enumerator.1)

/-- A text without a word has no members. -/
theorem enumerators_of_wordless {text : List Char} (ht : Wordless text) :
    (withMarker marker keepsComments).enumerators text = [] := by
  have h := enumerators_append_of_wordless marker keepsComments ht []
  rwa [List.append_nil, enumerators_nil] at h

/-- The first member of a text with a word is read at that word, and the others are
those of what is left behind it. -/
theorem exists_first_enumerator {text : List Char} (ht : ¬Wordless text) :
    ∃ (lead : List Char) (form : EnumeratorForm) (behind : List Char),
      text = lead ++ (form.text ++ behind) ∧ Wordless lead ∧
      form.name.chars = firstWord text ∧
      (withMarker marker keepsComments).enumerators text =
        form.leaves :: (withMarker marker keepsComments).enumerators behind := by
  obtain ⟨lead, name, rest, rfl, hl, hr⟩ := (wordless_or_exists_name text).resolve_left ht
  obtain ⟨form, behind, he, hread, hname⟩ := exists_first?_enumerator name hr
  rw [firstWord_append hl name hr, enumerators_append_of_wordless marker keepsComments hl]
  rw [he] at hread ⊢
  exact ⟨lead, form, behind, rfl, hl, hname, enumerators_of_first? marker keepsComments hread⟩

/-! ## Lone members -/

/-- A name with no other word behind it is read as a member without a value. -/
theorem enumerators_name_append (name : Name) {rest : List Char} (hr : Wordless rest) :
    (withMarker marker keepsComments).enumerators (name.chars ++ rest) =
      [⟨String.ofList name.chars, ""⟩] := by
  obtain ⟨form, behind, he, hread, hname⟩ := exists_first?_enumerator name hr.not_isWord_of_head
  rw [he] at hread
  rw [he, enumerators_of_first? marker keepsComments hread]
  obtain ⟨name', gap, value⟩ := form
  rw [EnumeratorForm.text, List.append_assoc, hname] at he
  have hrest := List.append_cancel_left he
  rw [hrest, wordless_append, wordless_append] at hr
  cases value with
  | none =>
    rw [enumerators_of_wordless marker keepsComments hr.2, EnumeratorForm.leaves, hname]
    rfl
  | some value =>
    have hvalue := (wordless_append.mp (wordless_append.mp hr.1.2).2).2
    exact absurd (wordless_append.mp (wordless_append.mp hvalue).2).2 (not_wordless_name _)

/-- A member with a value and no word behind it is read, wherever blanks stand. -/
theorem enumerators_valued_append (name : Name) (gap before : Stretch isBlank)
    (value : SignedValue) {rest : List Char} (hr : Wordless rest) :
    (withMarker marker keepsComments).enumerators
        (EnumeratorForm.text ⟨name, gap, some (before, value)⟩ ++ rest) =
      [EnumeratorForm.leaves ⟨name, gap, some (before, value)⟩] := by
  have hread (before : Stretch isBlank) (value : SignedValue)
      (hsign : value.negative = false → value.gap.chars = []) :=
    enumerators_of_first? marker keepsComments
      (prefers_valuedEnumerator name gap before value hsign hr.not_isWord_of_head).first?_eq
  rw [enumerators_of_wordless marker keepsComments hr] at hread
  obtain ⟨negative, space, word⟩ := value
  cases negative with
  | true => exact hread before ⟨true, space, word⟩ nofun
  | false =>
    -- without a sign the blanks belong to what stands in front of the value
    have hblanks : ∀ c ∈ before.chars ++ space.chars, isBlank c = true :=
      List.forall_mem_append.mpr ⟨before.inside_of_mem, space.inside_of_mem⟩
    have hjoined := hread ⟨before.chars ++ space.chars, hblanks⟩ ⟨false, noGap, word⟩ fun _ => rfl
    have htext : EnumeratorForm.text
          ⟨name, gap, some (⟨before.chars ++ space.chars, hblanks⟩, ⟨false, noGap, word⟩)⟩ =
        EnumeratorForm.text ⟨name, gap, some (before, ⟨false, space, word⟩)⟩ := by
      simp [EnumeratorForm.text, SignedValue.chars, signText]
    rw [htext] at hjoined
    exact hjoined

/-- A lone member is read as it is declared. -/
theorem enumerators_of_isLone {form : EnumeratorForm} {segment : List Char}
    (hs : IsLone form segment) :
    (withMarker marker keepsComments).enumerators segment = [form.leaves] := by
  obtain ⟨lead, tail, rfl, hl, ht⟩ := hs
  rw [enumerators_append_of_wordless marker keepsComments hl]
  obtain ⟨name, gap, _ | ⟨before, value⟩⟩ := form
  · have hrest := wordless_append.mpr ⟨wordless_blanks gap, ht⟩
    have htext : EnumeratorForm.text ⟨name, gap, none⟩ ++ tail =
        name.chars ++ (gap.chars ++ tail) := by
      simp [EnumeratorForm.text]
    rw [htext, enumerators_name_append marker keepsComments name hrest]
    rfl
  · exact enumerators_valued_append marker keepsComments name gap before value ht

/-! ## What a segment is read as -/

/-- A segment has no member without a word and one member if it holds a lone one.
Every other segment has more than one member. -/
theorem segmentRead_enumerators (segment : List Char) :
    SegmentRead segment ((withMarker marker keepsComments).enumerators segment) := by
  by_cases hw : Wordless segment
  · rw [enumerators_of_wordless marker keepsComments hw]
    exact ⟨iff_of_true rfl hw, fun form hs => absurd hw hs.not_wordless, fun h => absurd hw h,
      fun member hm => absurd hm (Option.not_mem_none member)⟩
  · obtain ⟨lead, form, behind, he, hl, hname, hmembers⟩ :=
      exists_first_enumerator marker keepsComments hw
    refine ⟨?_, fun form hs => enumerators_of_isLone marker keepsComments hs, fun _ hnone => ?_, ?_⟩
    · rw [hmembers]
      exact iff_of_false (List.cons_ne_nil _ _) hw
    · have hbehind : ¬Wordless behind := fun hb => hnone form ⟨lead, behind, he, hl, hb⟩
      obtain ⟨-, next, behind', -, -, -, hnext⟩ :=
        exists_first_enumerator marker keepsComments hbehind
      rw [hmembers, hnext]
      exact Nat.le_add_left 2 _
    · rw [hmembers]
      intro member hm
      rw [List.head?_cons, Option.mem_some_iff] at hm
      rw [← hm, EnumeratorForm.leaves, String.toList_ofList, hname]

/-! ## Commas -/

/-- No comma stands in a member. -/
theorem EnumeratorForm.comma_not_mem (form : EnumeratorForm) : ',' ∉ form.text := by
  have hname (name : Name) : ',' ∉ name.chars := name.not_mem (by decide)
  have hgap (gap : Stretch isBlank) : ',' ∉ gap.chars := gap.not_mem (by decide)
  have hsign (negative : Bool) : ',' ∉ signText negative := by cases negative <;> decide
  obtain ⟨name, gap, _ | ⟨before, value⟩⟩ := form
  · exact List.not_mem_append (hname name) (List.not_mem_append (hgap gap) List.not_mem_nil)
  · exact List.not_mem_append (hname name) (List.not_mem_append (hgap gap)
      (List.not_mem_append (by decide) (List.not_mem_append (hgap before)
        (List.not_mem_append (hsign _) (List.not_mem_append (hgap _) (hname _))))))

/-- Members are separated by every comma. -/
theorem separates_enumerator_commas : Separates [','] enumeratorPattern := by
  refine separates_of_not_mem fun word marks hs => ?_
  obtain ⟨form, rfl, -⟩ := writes_enumeratorPattern.exists_of_spells hs
  exact form.comma_not_mem

/-- A comma divides a body before and after it is put on one line. -/
theorem oneLine_append_comma (left right : List Char) :
    oneLine (left ++ ',' :: right) = oneLine left ++ ',' :: oneLine right := by
  have hcomma : oneLine ([','] ++ right) = [','] ++ oneLine right :=
    kept_of_not_blank (List.forall_mem_singleton.mpr (by decide)) right
  have hhead : (',' :: right).head? ≠ some ' ' := by
    rw [List.head?_cons]
    decide
  rw [oneLine_append (.inr hhead)]
  exact congrArg _ hcomma

/-- A body has the members of its segments. -/
theorem enumerators_oneLine (body : List Char) :
    (withMarker marker keepsComments).enumerators (oneLine body) =
      (segments body).flatMap (withMarker marker keepsComments).enumerators := by
  let read (text : List Char) := (withMarker marker keepsComments).enumerators (oneLine text)
  have hnil : read [] = [] := enumerators_nil marker keepsComments
  have happend (left right : List Char) :
      read (left ++ ',' :: right) = read left ++ read right := by
    simp only [read, oneLine_append_comma]
    exact map_scan_of_separates separates_enumerator_commas not_spells_enumerator.1
      (fun _ _ he => by rw [Occurrence.leaf_congr he, Occurrence.part_congr he]) _ _
  have hparts := eq_flatMap_intercalate hnil happend (body.splitOn ',')
  rw [List.intercalate_splitOn] at hparts
  rw [segments, List.flatMap_map]
  exact hparts

end Reading

end Grammar

/-! ## Members and segments -/

/-- There are no more members than segments that they come from. -/
theorem ReadFrom.length_le {parts : List (List Char)} {members : List Enumerator}
    (hr : ReadFrom parts members) : members.length ≤ parts.length := by
  obtain ⟨chosen, hsublist, hall⟩ := hr
  rw [← hall.length_eq]
  exact hsublist.length_le

section ReadFrom

variable {parts : List (List Char)} {read : List Char → List Enumerator}
  (hread : ∀ segment ∈ parts, SegmentRead segment (read segment))

include hread

/-- There are at least as many members as segments with a word. -/
theorem length_filter_le_of_segmentRead :
    (parts.filter (¬Wordless ·)).length ≤ (parts.flatMap read).length := by
  induction parts with
  | nil => exact Nat.le_refl 0
  | cons segment parts ih =>
    obtain ⟨hfirst, hrest⟩ := List.forall_mem_cons.mp hread
    have hmore := ih hrest
    rw [List.flatMap_cons, List.length_append, List.filter_cons]
    split_ifs with hw
    · have hne := List.length_pos_iff.mpr (mt hfirst.eq_nil_iff.mp (of_decide_eq_true hw))
      rw [List.length_cons]
      omega
    · omega

/-- If every segment with a word is written as a member, then each member comes from
a segment of its own. -/
theorem readFrom_of_isMember (hparts : ∀ segment ∈ parts, Wordless segment ∨ IsMember segment) :
    ReadFrom parts (parts.flatMap read) := by
  refine ⟨parts.filter (¬Wordless ·), List.filter_sublist, ?_⟩
  induction parts with
  | nil => exact .nil
  | cons segment parts ih =>
    obtain ⟨hfirst, hrest⟩ := List.forall_mem_cons.mp hread
    obtain ⟨hsegment, hothers⟩ := List.forall_mem_cons.mp hparts
    have hmore := ih hrest hothers
    rw [List.flatMap_cons]
    rcases hsegment with hw | hm
    · rw [hfirst.eq_nil_iff.mpr hw, List.filter_cons_of_neg (by simp [hw])]
      exact hmore
    · obtain ⟨form, hlone⟩ := hm.exists_isLone
      have hword := hlone.not_wordless
      have hone := hfirst.lone form hlone
      have hname := hfirst.head form.leaves (by rw [hone]; rfl)
      rw [hone, List.filter_cons_of_pos (by simp [hword])]
      exact .cons ⟨hm, hname⟩ hmore

/-- Each member comes from a segment of its own exactly if every segment that has a
word is written as a member. -/
theorem readFrom_iff :
    ReadFrom parts (parts.flatMap read) ↔
      ∀ segment ∈ parts, Wordless segment ∨ IsMember segment := by
  refine ⟨?_, readFrom_of_isMember hread⟩
  rintro ⟨chosen, hsublist, hall⟩ segment hs
  have hlength := hall.length_eq
  have hmembers := ((List.forall₂_and_left _ _).mp hall).1
  -- the segments that members come from are all segments that have a word
  have hchosen : chosen.filter (¬Wordless ·) = chosen :=
    List.filter_eq_self.mpr fun segment hm => by
      obtain ⟨form, hlone⟩ := (hmembers segment hm).exists_isLone
      exact decide_eq_true hlone.not_wordless
  have hwords : chosen.Sublist (parts.filter (¬Wordless ·)) := by
    rw [← hchosen]
    exact hsublist.filter _
  have hsame : chosen = parts.filter (¬Wordless ·) :=
    hwords.eq_of_length_le (hlength ▸ length_filter_le_of_segmentRead hread)
  by_cases hw : Wordless segment
  · exact .inl hw
  · refine .inr (hmembers segment ?_)
    rw [hsame, List.mem_filter]
    exact ⟨hs, decide_eq_true hw⟩

end ReadFrom

namespace Grammar

/-- The members of every enumeration of a header come from segments of its body, at
most one from each. -/
def MembersFromSegments (grammar : Grammar) (content : String) : Prop :=
  List.Forall₂ (fun found declared => ReadFrom (segments found.members) declared.values)
    (grammar.enum.scan (grammar.visibleText content.toList)) (grammar.extract content).enums

/-- The enumerations of a header have the members of the segments of the bodies that
are found. -/
theorem forall₂_enums_iff (marker : ExportMarker) (keepsComments : Bool) (content : String)
    {P : Occurrence Part → EnumDecl → Prop} :
    let grammar := withMarker marker keepsComments
    let places := grammar.enum.scan (grammar.visibleText content.toList)
    List.Forall₂ P places (grammar.extract content).enums ↔
      ∀ found ∈ places,
        P found ⟨found.leaf .name, (segments found.members).flatMap grammar.enumerators⟩ := by
  intro grammar places
  have henums : (grammar.extract content).enums = places.map fun found =>
      ⟨found.leaf .name, grammar.enumerators (found.part .body)⟩ := rfl
  rw [henums, List.forall₂_map_right_iff, List.forall₂_same]
  refine forall₂_congr fun found _ => ?_
  rw [← enumerators_oneLine marker keepsComments found.members]
  exact Iff.rfl

/-- The members of every enumeration are those of the segments of its body, one
segment after the other. A segment without a word has none, a lone member is read as
it is declared, and every other segment has more than one member. So each member
comes from a segment of its own, under the first word of the segment, exactly if every
segment that has a word is written as a member. -/
theorem enums_segments (marker : ExportMarker) (keepsComments : Bool) (content : String) :
    let grammar := withMarker marker keepsComments
    let places := grammar.enum.scan (grammar.visibleText content.toList)
    List.Forall₂ (fun found declared =>
        declared.values = (segments found.members).flatMap grammar.enumerators ∧
          (∀ segment ∈ segments found.members,
            SegmentRead segment (grammar.enumerators segment)) ∧
          (ReadFrom (segments found.members) declared.values ↔
            ∀ segment ∈ segments found.members, Wordless segment ∨ IsMember segment))
      places (grammar.extract content).enums ∧
    (grammar.MembersFromSegments content ↔
      ∀ found ∈ places, ∀ segment ∈ segments found.members,
        Wordless segment ∨ IsMember segment) := by
  intro grammar places
  have hread (found : Occurrence Part) : ∀ segment ∈ segments found.members,
      SegmentRead segment (grammar.enumerators segment) :=
    fun segment _ => segmentRead_enumerators marker keepsComments segment
  exact ⟨(forall₂_enums_iff marker keepsComments content).mpr fun found _ =>
      ⟨rfl, hread found, readFrom_iff (hread found)⟩,
    (forall₂_enums_iff marker keepsComments content).trans
      (forall₂_congr fun found _ => readFrom_iff (hread found))⟩

/-- What is left of an initializer behind its first word is read as a member. So there
are three members in two segments, the second one named by no first word. -/
theorem enums_of_difference :
    let content := "enum E \x7b A = 1 - 2, B \x7d;"
    ((standard.enum.scan (standard.visibleText content.toList)).map
        (fun found => (segments found.members).map String.ofList) = [[" A = 1 - 2", " B "]] ∧
      (standard.extract content).enums = [⟨"E", [⟨"A", "1"⟩, ⟨"2", ""⟩, ⟨"B", ""⟩]⟩]) ∧
    ¬∀ (marker : ExportMarker) (keepsComments : Bool) (content : String),
      (withMarker marker keepsComments).MembersFromSegments content := by
  intro content
  refine ⟨by decide +kernel, fun hall => ?_⟩
  have hmore : ∃ found ∈ standard.enum.scan (standard.visibleText content.toList),
      (segments found.members).length <
        ((segments found.members).flatMap standard.enumerators).length := by
    decide +kernel
  obtain ⟨found, hm, hlt⟩ := hmore
  have hfrom := (forall₂_enums_iff .standard false content).mp (hall .standard false content)
  exact absurd (hfrom found hm).length_le (Nat.not_le.mpr hlt)

end Grammar

end HeaderExports
