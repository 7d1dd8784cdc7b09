import HeaderExports.Proofs.Grammar.Words
import HeaderExports.Proofs.Pattern.Pinned
import HeaderExports.Proofs.Text.Runs

/-!
# Declarations that are pinned in a text

The words of these patterns hold a character that anchors them: the only
parenthesis, brace or semicolon of its kind. Two words with different anchors
lie apart, since the character that closes the one cannot stand in front of the
anchor of the other. Two words with the same anchor are read alike from it, in
both directions.
-/

namespace HeaderExports.Grammar

open Pattern
open Text (isBlank isWord append_before append_behind last_inj run_append_inj append_run_inj
  append_cons_split exists_append_singleton not_isWord_of_isBlank)

/-! ## Anchors -/

/-- Of two words that hold an anchor once, and of which no front holds the
character that closes a word, the one with the later anchor begins behind the
other. -/
theorem begins_behind_of_anchor {x z : Char} {a f g k b a' f' t r : List Char}
    (hk : x ∉ k) (hz : z ∉ f') (hg : x :: k = g ++ [z]) (ha : a' ++ f' = a ++ (f ++ x :: t))
    (hb : k ++ b = t ++ x :: r) : ∃ s, a' = a ++ (f ++ (x :: k ++ s)) := by
  obtain ⟨s, rfl, -⟩ := append_before hk hb
  have htext : a' ++ f' = (a ++ (f ++ g)) ++ z :: s := by
    rw [ha, ← List.cons_append, hg]
    simp only [List.append_assoc, List.singleton_append]
  obtain ⟨s', ha', -⟩ := append_behind hz htext
  refine ⟨s', ?_⟩
  rw [ha', hg]
  simp only [List.append_assoc, List.singleton_append]

/-- Two words that hold an anchor once, and of which no front holds the
character that closes them, lie apart or share the anchor. -/
theorem apart_or_same_anchor {x z : Char} {a f g k b a' f' g' k' b' : List Char}
    (hk : x ∉ k) (hk' : x ∉ k') (hz : z ∉ f) (hz' : z ∉ f') (hg : x :: k = g ++ [z])
    (hg' : x :: k' = g' ++ [z])
    (he : a ++ (f ++ x :: k ++ b) = a' ++ (f' ++ x :: k' ++ b')) :
    (∃ s, a' = a ++ (f ++ x :: k ++ s)) ∨ (∃ s, a = a' ++ (f' ++ x :: k' ++ s)) ∨
      (a ++ f = a' ++ f' ∧ k ++ b = k' ++ b') := by
  have hsplit : (a ++ f) ++ x :: (k ++ b) = (a' ++ f') ++ x :: (k' ++ b') := by
    simpa only [List.append_assoc, List.cons_append] using he
  rcases append_cons_split hsplit with ⟨t, ha, hb⟩ | ⟨t, ha, hb⟩ | hsame
  · rw [List.append_assoc] at ha
    obtain ⟨s, hs⟩ := begins_behind_of_anchor hk hz' hg ha hb
    exact .inl ⟨s, by rw [hs, List.append_assoc]⟩
  · rw [List.append_assoc] at ha
    obtain ⟨s, hs⟩ := begins_behind_of_anchor hk' hz hg' ha hb
    exact .inr (.inl ⟨s, by rw [hs, List.append_assoc]⟩)
  · exact .inr (.inr hsame)

/-- A pattern is pinned if its words hold an anchor once, no front holds the
character that closes them, and the anchor determines what is read. -/
theorem pinned_of_anchor {α : Type} {p : Pattern Part} {text : α → List Char}
    {parts : α → Marks Part} (hw : Writes p text parts) (x z : Char) (head tail : α → List Char)
    (ht : ∀ form, text form = head form ++ x :: tail form) (hk : ∀ form, x ∉ tail form)
    (hz : ∀ form, z ∉ head form) (hg : ∀ form, ∃ g, x :: tail form = g ++ [z])
    (hsame : ∀ (form form' : α) (a a' b b' : List Char), a ++ head form = a' ++ head form' →
      tail form ++ b = tail form' ++ b' → b = b' ∧ parts form = parts form') : Pinned p where
  nonempty := by
    intro marks hs
    obtain ⟨form, he, -⟩ := hw.exists_of_spells hs
    rw [ht form] at he
    exact List.cons_ne_nil _ _ (List.append_eq_nil_iff.mp he.symm).2
  apart_or_same := by
    intro a word b a' word' b' marks marks' hs hs' he
    obtain ⟨form, rfl, rfl⟩ := hw.exists_of_spells hs
    obtain ⟨form', rfl, rfl⟩ := hw.exists_of_spells hs'
    obtain ⟨g, hend⟩ := hg form
    obtain ⟨g', hend'⟩ := hg form'
    rw [ht form, ht form'] at he ⊢
    rcases apart_or_same_anchor (hk form) (hk form') (hz form) (hz form') hend hend' he with
      h | h | ⟨hfront, hrest⟩
    · exact .inl h
    · exact .inr (.inl h)
    · exact .inr (.inr (hsame form form' a a' b b' hfront hrest))

/-! ## Names and types in front of an anchor -/

/-- The characters of a starred name are word characters and stars. -/
theorem StarredName.of_mem (type : StarredName) {c : Char} (hc : c ∈ type.chars) :
    isWord c = true ∨ c = '*' := by
  rcases List.mem_append.mp hc with h | h
  · exact .inl (type.base.inside_of_mem c h)
  · exact .inr (List.eq_of_mem_replicate h)

/-- A character that is no word character and no star stands in no starred
name. -/
theorem StarredName.not_mem (type : StarredName) {c : Char} (hw : isWord c = false)
    (hstar : c ≠ '*') : c ∉ type.chars := by
  intro hm
  rcases type.of_mem hm with h | h
  · rw [hw] at h
    exact Bool.noConfusion h
  · exact hstar h

/-- A starred name has a character. -/
theorem StarredName.chars_ne_nil (type : StarredName) : type.chars ≠ [] :=
  fun h => type.base.nonempty (List.append_eq_nil_iff.mp h).1

/-- No character of a starred name is a blank. -/
theorem StarredName.not_blank (type : StarredName) :
    ∀ c ∈ type.chars, ¬isBlank c = true := by
  intro c hc hb
  rcases type.of_mem hc with h | rfl
  · rw [(not_isWord_of_isBlank hb).1] at h
    exact Bool.noConfusion h
  · exact absurd hb (by decide)

/-- No character of a name is a blank. -/
theorem Name.not_blank (n : Name) : ∀ c ∈ n.chars, ¬isBlank c = true := by
  intro c hc hb
  have h := n.inside_of_mem c hc
  rw [(not_isWord_of_isBlank hb).1] at h
  exact Bool.noConfusion h

/-- A character that is no word character, star or space stands in no return
type. -/
theorem ReturnType.not_mem (type : ReturnType) {c : Char} (hw : isWord c = false)
    (hstar : c ≠ '*') (hspace : c ≠ ' ') : c ∉ type.chars := by
  have hq : c ∉ qualifierText type.qualified := by
    intro hm
    unfold qualifierText at hm
    split_ifs at hm
    · have hall : "const ".toList.all (fun d => isWord d || d == ' ') = true := by decide
      have hc := List.all_eq_true.mp hall c hm
      rw [hw, Bool.false_or, beq_iff_eq] at hc
      exact hspace hc
    · cases hm
  exact List.not_mem_append hq (type.starred.not_mem hw hstar)

/-- Names behind spaces are the same if the texts are. -/
theorem Name.behind_space_inj {n n' : Name} {l l' : List Char}
    (he : l ++ ' ' :: n.chars = l' ++ ' ' :: n'.chars) : l = l' ∧ n.chars = n'.chars := by
  have h := append_run_inj n.inside_of_mem n'.inside_of_mem (by decide) (by decide) he
  exact ⟨h.1, h.2.2⟩

/-- Gaps behind names or types are the same if the texts are. -/
theorem gap_behind_inj {gap gap' : Stretch isBlank} {l l' u u' : List Char} (hne : u ≠ [])
    (hne' : u' ≠ []) (hu : ∀ c ∈ u, ¬isBlank c = true) (hu' : ∀ c ∈ u', ¬isBlank c = true)
    (he : l ++ (u ++ gap.chars) = l' ++ (u' ++ gap'.chars)) : l ++ u = l' ++ u' := by
  obtain ⟨v, d, rfl, hd⟩ := exists_append_singleton hne
  obtain ⟨v', d', rfl, hd'⟩ := exists_append_singleton hne'
  have htext : (l ++ v) ++ d :: gap.chars = (l' ++ v') ++ d' :: gap'.chars := by
    simpa only [List.append_assoc, List.singleton_append] using he
  obtain ⟨hl, rfl, -⟩ := append_run_inj gap.inside_of_mem gap'.inside_of_mem (hu d hd) (hu' d' hd')
    htext
  rw [← List.append_assoc, ← List.append_assoc, hl]

/-- The qualifier with the space in front of it and not behind it. -/
def qualifierBehind (qualified : Bool) : List Char :=
  if qualified then ' ' :: "const".toList else []

/-- The space between a text and a qualified type may be counted to the
type's name. -/
theorem append_space_chars (type : ReturnType) (l : List Char) :
    l ++ ' ' :: type.chars =
      (l ++ qualifierBehind type.qualified) ++ ' ' :: type.starred.chars := by
  obtain ⟨qualified, starred⟩ := type
  cases qualified
  · rw [ReturnType.chars, qualifierBehind, List.append_assoc]
    rfl
  · rw [ReturnType.chars, qualifierBehind, List.append_assoc]
    rfl

/-- Types behind spaces are the same, up to their qualifiers, if the texts
are. -/
theorem ReturnType.behind_space_inj {type type' : ReturnType} {l l' : List Char}
    (he : l ++ ' ' :: type.chars = l' ++ ' ' :: type'.chars) :
    l ++ qualifierBehind type.qualified = l' ++ qualifierBehind type'.qualified ∧
      type.starred.chars = type'.starred.chars := by
  rw [append_space_chars, append_space_chars] at he
  have hspace (starred : StarredName) : ' ' ∉ starred.chars :=
    starred.not_mem (by decide) (by decide)
  exact last_inj (hspace type.starred) (hspace type'.starred) he

/-! ## The patterns -/

/-- What stands in front of a body has one name behind one keyword. -/
theorem BracedForm.head_inj {inside inside' : Char → Bool} {keyword keyword' : String}
    {front front' l l' : List Char} (hk : keyword.toList = front ++ [' '])
    (hk' : keyword'.toList = front' ++ [' ']) {form : BracedForm inside}
    {form' : BracedForm inside'} (he : l ++ form.head keyword = l' ++ form'.head keyword') :
    l ++ front = l' ++ front' ∧ form.name.chars = form'.name.chars := by
  unfold BracedForm.head at he
  rw [← List.append_assoc l, ← List.append_assoc l'] at he
  have hnames := gap_behind_inj form.name.nonempty form'.name.nonempty
    (Name.not_blank form.name) (Name.not_blank form'.name) he
  have hspace {keyword : String} {front : List Char} (hk : keyword.toList = front ++ [' '])
      (l : List Char) (n : Name) :
      (l ++ keyword.toList) ++ n.chars = (l ++ front) ++ ' ' :: n.chars := by
    rw [hk, List.append_assoc, List.append_assoc, List.append_assoc, List.singleton_append]
  rw [hspace hk, hspace hk'] at hnames
  exact Name.behind_space_inj hnames

/-- What stands in front of the semicolon of a type name has one tag and one
name. -/
theorem AliasForm.head_inj {keyword keyword' : String} {l l' : List Char} {form form' : AliasForm}
    (he : l ++ form.head keyword = l' ++ form'.head keyword') :
    l ++ aliasFront keyword = l' ++ aliasFront keyword' ∧ form.tag.chars = form'.tag.chars ∧
      form.name.chars = form'.name.chars := by
  have htext (keyword : String) (l : List Char) (form : AliasForm) : l ++ form.head keyword =
      ((l ++ aliasFront keyword) ++ ' ' :: form.tag.chars) ++ ' ' :: form.name.chars := by
    simp only [AliasForm.head, List.append_assoc, List.cons_append]
  rw [htext, htext] at he
  obtain ⟨htags, hname⟩ := Name.behind_space_inj he
  obtain ⟨hfront, htag⟩ := Name.behind_space_inj htags
  exact ⟨hfront, htag, hname⟩

/-- A character that is no word character and no space stands in front of the
semicolon of a type name only if it stands in the keyword. -/
theorem AliasForm.not_mem_head {keyword : String} (form : AliasForm) {c : Char}
    (hw : isWord c = false) (hspace : c ≠ ' ') (hk : c ∉ keyword.toList) :
    c ∉ form.head keyword := by
  have hall : "typedef ".toList.all (fun d => isWord d || d == ' ') = true := by decide
  have htypedef : c ∉ "typedef ".toList := by
    intro hm
    have hc := List.all_eq_true.mp hall c hm
    rw [hw, Bool.false_or, beq_iff_eq] at hc
    exact hspace hc
  have hfront : c ∉ aliasFront keyword := List.not_mem_append htypedef hk
  have htag := form.tag.not_mem hw
  have hname := form.name.not_mem hw
  simp only [AliasForm.head, List.mem_append, List.mem_cons, not_or]
  exact ⟨hfront, hspace, htag, hspace, hname⟩

section Keyword

variable {keyword : String}

/-- Declarations with a body behind a keyword and a space are pinned at their
braces, if neither the keyword nor a body holds what ends a word. -/
theorem pinned_braced {inside : Char → Bool} {front : List Char}
    (hk : keyword.toList = front ++ [' ']) (hs : ';' ∉ keyword.toList)
    (hopen : inside '\x7b' = false) (hclose : inside '\x7d' = false) :
    Pinned (chain [Pattern.lit keyword, name, blanks, body inside, Pattern.lit ";"]) := by
  refine pinned_of_anchor (@writes_braced inside keyword) '\x7b' ';'
    (BracedForm.head keyword) (fun form => form.members.chars ++ ['\x7d', ';'])
    (BracedForm.text_eq keyword) (fun form => ?_) (fun form => ?_) (fun form => ?_)
    fun form form' a a' b b' hfront hrest => ?_
  · exact List.not_mem_append (form.members.not_mem hopen) (by decide)
  · have hname := form.name.not_mem (c := ';') (by decide)
    have hgap := form.gap.not_mem (c := ';') (by decide)
    exact List.not_mem_append hs (List.not_mem_append hname hgap)
  · refine ⟨'\x7b' :: (form.members.chars ++ ['\x7d']), ?_⟩
    rw [List.cons_append, List.append_assoc, List.singleton_append]
  · have hname := (BracedForm.head_inj hk hk hfront).2
    rw [List.append_assoc, List.append_assoc] at hrest
    obtain ⟨hbody, -, hb⟩ := run_append_inj (P := (inside · = true)) form.members.inside_of_mem
      form'.members.inside_of_mem (by rw [hclose]; exact Bool.false_ne_true)
      (by rw [hclose]; exact Bool.false_ne_true) hrest
    rw [BracedForm.parts, BracedForm.parts, hname, hbody]
    exact ⟨(List.cons.inj hb).2, rfl⟩

/-- Type names for tags are pinned at their semicolons. -/
theorem pinned_aliasPattern (hs : ';' ∉ keyword.toList) : Pinned (aliasPattern keyword) := by
  refine pinned_of_anchor (writes_aliasPattern keyword) ';' ';'
    (AliasForm.head keyword) (fun form => []) (AliasForm.text_eq_head keyword)
    (fun form => List.not_mem_nil) (fun form => form.not_mem_head (by decide) (by decide) hs)
    (fun form => ⟨[], rfl⟩) fun form form' a a' b b' hfront hrest => ?_
  · obtain ⟨-, htag, hname⟩ := AliasForm.head_inj hfront
    rw [AliasForm.parts, AliasForm.parts, hname, htag]
    exact ⟨hrest, rfl⟩

end Keyword

/-- A character that is no marker character does not stand in a marker. -/
theorem not_mem_marker (marker : ExportMarker) {c : Char} (hc : isMarkerChar c = false) :
    c ∉ marker.text.toList := by
  intro hm
  rw [List.all_eq_true.mp marker.fragment c hm] at hc
  exact Bool.noConfusion hc

/-- No space stands in the word that announces a function. -/
theorem space_not_mem_announcer (marker : ExportMarker) (announcer : Name) :
    ' ' ∉ announcer.chars ++ marker.text.toList :=
  List.not_mem_append (announcer.not_mem (by decide)) (not_mem_marker marker (by decide))

/-- A character of neither words, markers nor types does not stand in front of the
parameter list of a function. -/
theorem FunctionForm.not_mem_head (marker : ExportMarker) (form : FunctionForm) {c : Char}
    (hw : isWord c = false) (hm : isMarkerChar c = false) (hstar : c ≠ '*') (hspace : c ≠ ' ') :
    c ∉ form.head marker := by
  have hannouncer := form.announcer.not_mem hw
  have hmarker := not_mem_marker marker hm
  have htype := form.type.not_mem hw hstar hspace
  have hname := form.name.not_mem hw
  simp only [FunctionForm.head, List.mem_append, List.mem_cons, not_or]
  exact ⟨⟨hannouncer, hmarker⟩, hspace, htype, hspace, hname⟩

/-- A word that announces a function with another marker than an end of the
qualifier is not mistaken for the qualifier. -/
theorem append_qualifier_ne {marker : ExportMarker}
    (hm : marker.text ∉ ["t", "st", "nst", "onst"]) (announcer : Name) (l l' : List Char) :
    l ++ ' ' :: "const".toList ≠ l' ++ (announcer.chars ++ marker.text.toList) := by
  intro he
  obtain ⟨s, -, hs⟩ := append_behind (space_not_mem_announcer marker announcer) he.symm
  rw [← List.append_assoc] at hs
  have hfront := List.length_pos_iff.mpr announcer.nonempty
  have hmarker := List.length_pos_iff.mpr marker.nonempty
  have hlength := congrArg List.length hs
  simp only [List.length_append] at hlength
  have hdrop : "const".toList.drop (s ++ announcer.chars).length = marker.text.toList := by
    rw [hs, List.drop_left]
  have htext : marker.text =
      String.ofList ("const".toList.drop (s ++ announcer.chars).length) := by
    rw [hdrop, String.ofList_toList]
  have hfive : "const".toList.length = 5 := rfl
  rw [List.length_append] at htext
  rw [hfive] at hlength
  obtain h | h | h | h : s.length + announcer.chars.length = 1 ∨
      s.length + announcer.chars.length = 2 ∨ s.length + announcer.chars.length = 3 ∨
      s.length + announcer.chars.length = 4 := by omega
  all_goals
    rw [h] at htext
    exact hm (htext ▸ by decide)

/-- Functions are pinned at their parentheses, unless their marker is the end
of the qualifier. -/
theorem pinned_functionPattern {marker : ExportMarker}
    (hm : marker.text ∉ ["t", "st", "nst", "onst"]) : Pinned (functionPattern marker) := by
  refine pinned_of_anchor (writes_functionPattern marker) '(' ';' (FunctionForm.head marker)
    (fun form => form.list.chars ++ [')', ';']) (FunctionForm.text_eq marker) (fun form => ?_)
    (fun form => ?_) (fun form => ?_) fun form form' a a' b b' hfront hrest => ?_
  · exact List.not_mem_append (form.list.not_mem (by decide)) (by decide)
  · exact form.not_mem_head marker (by decide) (by decide) (by decide) (by decide)
  · refine ⟨'(' :: (form.list.chars ++ [')']), ?_⟩
    rw [List.cons_append, List.append_assoc, List.singleton_append]
  · have htext (l : List Char) (form : FunctionForm) : l ++ form.head marker =
        ((l ++ (form.announcer.chars ++ marker.text.toList)) ++ ' ' :: form.type.chars) ++
          ' ' :: form.name.chars := by
      simp only [FunctionForm.head, List.append_assoc, List.cons_append]
    rw [htext, htext] at hfront
    obtain ⟨htypes, hname⟩ := Name.behind_space_inj hfront
    obtain ⟨hqualifier, hstarred⟩ := ReturnType.behind_space_inj htypes
    have htype : form.type.qualified = form'.type.qualified := by
      unfold qualifierBehind at hqualifier
      cases h : form.type.qualified <;> cases h' : form'.type.qualified
      · rfl
      · rw [h, h', if_neg Bool.false_ne_true, List.append_nil] at hqualifier
        exact absurd hqualifier.symm (append_qualifier_ne hm form.announcer _ _)
      · rw [h, h', if_neg Bool.false_ne_true, List.append_nil] at hqualifier
        exact absurd hqualifier (append_qualifier_ne hm form'.announcer _ _)
      · rfl
    rw [List.append_assoc, List.append_assoc] at hrest
    obtain ⟨hlist, -, hb⟩ := run_append_inj form.list.inside_of_mem form'.list.inside_of_mem
      (by decide) (by decide) hrest
    rw [FunctionForm.parts, FunctionForm.parts, ReturnType.chars, ReturnType.chars, htype, hstarred,
      hname, hlist]
    exact ⟨(List.cons.inj hb).2, rfl⟩

/-- No parenthesis stands in front of those of a function pointer type. -/
theorem CallbackForm.not_mem_head (form : CallbackForm) {c : Char} (hc : c = '(' ∨ c = ')') :
    c ∉ form.head := by
  unfold head
  rcases hc with rfl | rfl
  · exact List.not_mem_append (by decide) (List.not_mem_append
      (form.type.not_mem (by decide) (by decide) (by decide)) (form.gap.not_mem (by decide)))
  · exact List.not_mem_append (by decide) (List.not_mem_append
      (form.type.not_mem (by decide) (by decide) (by decide)) (form.gap.not_mem (by decide)))

/-- Something stands in front of the parentheses of a function pointer type. -/
theorem CallbackForm.head_ne_nil (form : CallbackForm) : form.head ≠ [] :=
  List.append_ne_nil_of_left_ne_nil (List.cons_ne_nil 't' _) _

/-- Neither in front of the second opening parenthesis of a function pointer
type nor behind it stands another one. -/
theorem CallbackForm.not_mem_tail (form : CallbackForm) :
    '(' ∉ '*' :: (form.name.chars ++ [')']) ∧ '(' ∉ form.list.chars ++ [')'] := by
  constructor
  · exact List.not_mem_cons_of_ne_of_not_mem (by decide)
      (List.not_mem_append (form.name.not_mem (by decide)) (by decide))
  · exact List.not_mem_append (form.list.not_mem (by decide)) (by decide)

/-- A function pointer type whose first parenthesis stands behind that of
another one begins behind the other one. -/
theorem CallbackForm.begins_behind (form form' : CallbackForm) {a a' b b' t : List Char}
    (ha : a' ++ form'.head = a ++ (form.head ++ '(' :: t))
    (hb : form.tail ++ b = t ++ '(' :: (form'.tail ++ b')) :
    ∃ s, a' = a ++ (form.text ++ s) := by
  have hclosed : ')' ∉ form'.head := form'.not_mem_head (.inr rfl)
  have htail : form.tail ++ b =
      ('*' :: (form.name.chars ++ [')'])) ++ '(' :: ((form.list.chars ++ [')']) ++ b) := by
    rw [form.tail_eq, List.append_assoc]
    rfl
  rw [htail] at hb
  obtain ⟨s, rfl, hs⟩ := append_before form.not_mem_tail.1 hb
  cases s with
  | nil =>
    -- the name of the one would end where the head of the other does
    have htext : a' ++ form'.head =
        (a ++ (form.head ++ '(' :: '*' :: form.name.chars)) ++ ')' :: [] := by
      rw [ha]
      simp only [List.append_assoc, List.cons_append, List.append_nil]
    obtain ⟨s', -, hs'⟩ := append_behind hclosed htext
    exact absurd (List.append_eq_nil_iff.mp hs'.symm).2 form'.head_ne_nil
  | cons d s =>
    rw [List.cons_append, List.cons.injEq] at hs
    obtain ⟨u, rfl, -⟩ := append_before form.not_mem_tail.2 hs.2
    have htext : a' ++ form'.head = (a ++ (form.head ++ '(' :: '*' ::
        (form.name.chars ++ ')' :: '(' :: form.list.chars))) ++ ')' :: u := by
      rw [ha, ← hs.1]
      simp only [List.append_assoc, List.cons_append, List.nil_append]
    obtain ⟨s', hs', -⟩ := append_behind hclosed htext
    refine ⟨s', ?_⟩
    rw [hs', text_eq, tail]
    simp only [List.append_assoc, List.cons_append, List.nil_append]

/-- Function pointer types with the same first parenthesis are read alike. -/
theorem CallbackForm.same_of_head (form form' : CallbackForm) {a a' b b' : List Char}
    (hfront : a ++ form.head = a' ++ form'.head) (hrest : form.tail ++ b = form'.tail ++ b') :
    b = b' ∧ form.parts = form'.parts := by
  have hchars (l : List Char) (form : CallbackForm) : l ++ form.head =
      (l ++ "typedef ".toList ++ qualifierText form.type.qualified) ++
        (form.type.starred.chars ++ form.gap.chars) := by
    unfold head ReturnType.chars
    generalize "typedef ".toList = front
    simp only [List.append_assoc]
  have hspace (l : List Char) (type : ReturnType) :
      (l ++ "typedef ".toList ++ qualifierText type.qualified) ++ type.starred.chars =
        (l ++ "typedef".toList) ++ ' ' :: type.chars := by
    rw [List.append_assoc, List.append_assoc, List.append_assoc]
    rfl
  rw [hchars, hchars] at hfront
  have htypes := gap_behind_inj form.type.starred.chars_ne_nil form'.type.starred.chars_ne_nil
    form.type.starred.not_blank form'.type.starred.not_blank hfront
  rw [hspace, hspace] at htypes
  obtain ⟨hqualifier, hstarred⟩ := ReturnType.behind_space_inj htypes
  have hqualified : form.type.qualified = form'.type.qualified := by
    have hlast := congrArg List.getLast? hqualifier
    cases h : form.type.qualified <;> cases h' : form'.type.qualified
    · rfl
    · rw [h, h'] at hlast
      simp [qualifierBehind] at hlast
    · rw [h, h'] at hlast
      simp [qualifierBehind] at hlast
    · rfl
  have htail (form : CallbackForm) (l : List Char) : form.tail ++ l =
      '*' :: (form.name.chars ++ ')' :: '(' :: (form.list.chars ++ ')' :: l)) := by
    simp only [tail, List.cons_append, List.append_assoc, List.nil_append]
  rw [htail, htail, List.cons.injEq] at hrest
  obtain ⟨hname, -, hlists⟩ := run_append_inj form.name.inside_of_mem form'.name.inside_of_mem
    (by decide) (by decide) hrest.2
  obtain ⟨hlist, -, hb⟩ := run_append_inj form.list.inside_of_mem form'.list.inside_of_mem
    (by decide) (by decide) (List.cons.inj hlists).2
  rw [parts, parts, ReturnType.chars, ReturnType.chars, hqualified, hstarred, hname, hlist]
  exact ⟨hb, rfl⟩

/-- Function pointer types are pinned. -/
theorem pinned_callbackPattern : Pinned callbackPattern where
  nonempty := writes_callbackPattern.not_spells_nil CallbackForm.text_ne_nil
  apart_or_same := by
    intro a word b a' word' b' marks marks' hs hs' he
    obtain ⟨form, rfl, rfl⟩ := writes_callbackPattern.exists_of_spells hs
    obtain ⟨form', rfl, rfl⟩ := writes_callbackPattern.exists_of_spells hs'
    have hsplit : (a ++ form.head) ++ '(' :: (form.tail ++ b) =
        (a' ++ form'.head) ++ '(' :: (form'.tail ++ b') := by
      simpa only [CallbackForm.text_eq, List.append_assoc, List.cons_append] using he
    rcases append_cons_split hsplit with ⟨t, ha, hb⟩ | ⟨t, ha, hb⟩ | ⟨ha, hb⟩
    · rw [List.append_assoc] at ha
      exact .inl (form.begins_behind form' ha hb)
    · rw [List.append_assoc] at ha
      exact .inr (.inl (form'.begins_behind form ha hb))
    · exact .inr (.inr (form.same_of_head form' ha hb))

/-- Enumerations are pinned. -/
theorem pinned_enumPattern : Pinned enumPattern :=
  @pinned_braced "enum " inEnumBody "enum".toList rfl (by decide) (by decide) (by decide)

/-- Type names for enumerations are pinned. -/
theorem pinned_enumAliasPattern : Pinned enumAliasPattern := pinned_aliasPattern (by decide)

/-- Structs are pinned. -/
theorem pinned_structPattern : Pinned structPattern :=
  @pinned_braced "struct " inStructBody "struct".toList rfl (by decide) (by decide) (by decide)

/-- Type names for structs are pinned. -/
theorem pinned_structAliasPattern : Pinned structAliasPattern := pinned_aliasPattern (by decide)

end HeaderExports.Grammar
