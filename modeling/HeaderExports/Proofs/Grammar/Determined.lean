import HeaderExports.Proofs.Grammar.Pinned

/-!
# Declarations that are determined by where they begin

From its first character on, a function is read in one way under every marker,
and so is a struct with a type name. What stands in front is not looked at, so
nothing is asked of the marker here.
-/

namespace HeaderExports.Grammar

open Pattern
open Text (isBlank isWord first_inj run_append_inj)

/-- Functions are determined by where they begin. -/
theorem determined_functionPattern (marker : ExportMarker) :
    Determined (functionPattern marker) where
  nonempty := (writes_functionPattern marker).not_spells_nil (FunctionForm.text_ne_nil marker)
  same := by
    intro word b word' b' marks marks' hs hs' he
    obtain ⟨form, rfl, rfl⟩ := (writes_functionPattern marker).exists_of_spells hs
    obtain ⟨form', rfl, rfl⟩ := (writes_functionPattern marker).exists_of_spells hs'
    have hopen (form : FunctionForm) : '(' ∉ form.head marker :=
      form.not_mem_head marker (by decide) (by decide) (by decide) (by decide)
    have htext (form : FunctionForm) (b : List Char) : form.text marker ++ b =
        form.head marker ++ '(' :: (form.list.chars ++ ')' :: ';' :: b) := by
      simp only [FunctionForm.text_eq, List.append_assoc, List.cons_append, List.nil_append]
    rw [htext, htext] at he
    obtain ⟨hhead, hrest⟩ := first_inj (hopen form) (hopen form') he
    obtain ⟨-, hnames⟩ := first_inj (space_not_mem_announcer marker form.announcer)
      (space_not_mem_announcer marker form'.announcer) hhead
    obtain ⟨htype, hname⟩ := Name.behind_space_inj hnames
    obtain ⟨hlist, -, hb⟩ := run_append_inj form.list.inside_of_mem form'.list.inside_of_mem
      (by decide) (by decide) hrest
    rw [FunctionForm.parts, FunctionForm.parts, htype, hname, hlist]
    exact ⟨(List.cons.inj hb).2, rfl⟩

/-- What stands between the keyword and the body of a struct with a type name
holds its tag. -/
theorem AliasedStructForm.tag_eq (form form' : AliasedStructForm)
    (he : form.tagText ++ form.gap.chars = form'.tagText ++ form'.gap.chars) :
    form.tag.map (fun tag => tag.2.chars) = form'.tag.map fun tag => tag.2.chars := by
  -- a tag cannot be hidden in a gap
  have hhidden (front : Token isBlank) (tag : Name) (gap gap' : Stretch isBlank) :
      front.chars ++ tag.chars ++ gap.chars ≠ gap'.chars := by
    intro h
    obtain ⟨c, rest, hc⟩ := List.exists_cons_of_ne_nil tag.nonempty
    have hm : c ∈ gap'.chars := by
      rw [← h, hc]
      exact List.mem_append_left _ (List.mem_append_right _ List.mem_cons_self)
    exact Name.not_blank tag c (hc ▸ List.mem_cons_self) (gap'.inside_of_mem c hm)
  obtain ⟨tag, gap, _, _, _⟩ := form
  obtain ⟨tag', gap', _, _, _⟩ := form'
  simp only [tagText] at he
  cases tag with
  | none =>
    cases tag' with
    | none => rfl
    | some tag' => exact absurd he.symm (hhidden tag'.1 tag'.2 gap' gap)
  | some tag =>
    cases tag' with
    | none => exact absurd he (hhidden tag.1 tag.2 gap gap')
    | some tag' =>
      simp only [Option.elim, List.append_assoc] at he
      have htags := gap_behind_inj tag.2.nonempty tag'.2.nonempty (Name.not_blank tag.2)
        (Name.not_blank tag'.2) he
      obtain ⟨c, rest, hc⟩ := List.exists_cons_of_ne_nil tag.2.nonempty
      obtain ⟨c', rest', hc'⟩ := List.exists_cons_of_ne_nil tag'.2.nonempty
      rw [hc, hc'] at htags
      obtain ⟨-, hfirst, hrest⟩ := run_append_inj tag.1.inside_of_mem tag'.1.inside_of_mem
        (Name.not_blank tag.2 c (hc ▸ List.mem_cons_self))
        (Name.not_blank tag'.2 c' (hc' ▸ List.mem_cons_self)) htags
      simp only [Option.map_some, hc, hc', hfirst, hrest]

/-- Tags and gaps hold word characters and blanks. -/
theorem AliasedStructForm.of_mem_front (form : AliasedStructForm) {c : Char}
    (hc : c ∈ form.tagText ++ form.gap.chars) : isWord c = true ∨ isBlank c = true := by
  rcases List.mem_append.mp hc with h | h
  · unfold tagText at h
    cases htag : form.tag with
    | none =>
      rw [htag] at h
      cases h
    | some tag =>
      rw [htag] at h
      rcases List.mem_append.mp h with h | h
      · exact .inr (tag.1.inside_of_mem c h)
      · exact .inl (tag.2.inside_of_mem c h)
  · exact .inr (form.gap.inside_of_mem c h)

/-- Other characters do not stand in front of the body of a struct with a type
name. -/
theorem AliasedStructForm.not_mem_head (form : AliasedStructForm) {c : Char}
    (hw : isWord c = false) (hb : isBlank c = false) : c ∉ form.head := by
  have hall : "typedef struct".toList.all (fun d => isWord d || isBlank d) = true := by decide
  intro hm
  rcases List.mem_append.mp hm with h | h
  · have hc := List.all_eq_true.mp hall c h
    rw [hw, hb] at hc
    exact Bool.noConfusion hc
  · have hc := form.of_mem_front h
    rw [hw, hb] at hc
    exact hc.elim Bool.noConfusion Bool.noConfusion

/-- What stands behind the body of a struct with a type name. -/
theorem AliasedStructForm.behind_inj (form form' : AliasedStructForm) {b b' : List Char}
    (he : form.behind.chars ++ (form.name.chars ++ ';' :: b) =
      form'.behind.chars ++ (form'.name.chars ++ ';' :: b')) :
    form.name.chars = form'.name.chars ∧ b = b' := by
  obtain ⟨c, rest, hc⟩ := List.exists_cons_of_ne_nil form.name.nonempty
  obtain ⟨c', rest', hc'⟩ := List.exists_cons_of_ne_nil form'.name.nonempty
  rw [hc, hc', List.cons_append, List.cons_append] at he
  obtain ⟨-, hfirst, hrest⟩ := run_append_inj form.behind.inside_of_mem form'.behind.inside_of_mem
    (Name.not_blank form.name c (hc ▸ List.mem_cons_self))
    (Name.not_blank form'.name c' (hc' ▸ List.mem_cons_self)) he
  have hnames : form.name.chars ++ ';' :: b = form'.name.chars ++ ';' :: b' := by
    rw [hc, hc', List.cons_append, List.cons_append, hfirst, hrest]
  obtain ⟨hname, -, hb⟩ := run_append_inj form.name.inside_of_mem form'.name.inside_of_mem
    (by decide) (by decide) hnames
  exact ⟨hname, hb⟩

/-- Behind the opening brace of a struct with a type name stands no other one. -/
theorem AliasedStructForm.brace_not_mem_tail (form : AliasedStructForm) : '\x7b' ∉ form.tail := by
  have hmembers := form.members.not_mem (c := '\x7b') (by decide)
  have hbehind := form.behind.not_mem (c := '\x7b') (by decide)
  have hname := form.name.not_mem (c := '\x7b') (by decide)
  simp only [tail, List.mem_append, List.mem_cons, not_or]
  exact ⟨hmembers, by decide, hbehind, hname, by decide, List.not_mem_nil⟩

/-- Behind the body of a struct with a type name the name follows, and behind
other bodies a semicolon. -/
theorem AliasedStructForm.tail_append_ne (form : AliasedStructForm) {inside : Char → Bool}
    (members : Stretch inside) (hclose : inside '\x7d' = false) (a b : List Char) :
    form.tail ++ a ≠ (members.chars ++ ['\x7d', ';']) ++ b := by
  intro he
  have hleft : '\x7d' ∉ form.members.chars := form.members.not_mem (by decide)
  have hright : '\x7d' ∉ members.chars := members.not_mem hclose
  rw [tail, List.append_assoc, List.append_assoc, List.cons_append] at he
  obtain ⟨-, hrest⟩ := first_inj hleft hright he
  obtain ⟨c, word, hc⟩ := List.exists_cons_of_ne_nil form.name.nonempty
  cases hgap : form.behind.chars with
  | nil =>
    have hword := form.name.inside_of_mem c (hc ▸ List.mem_cons_self)
    rw [hgap, hc] at hrest
    rw [(List.cons.inj hrest).1] at hword
    exact absurd hword (by decide)
  | cons d gap =>
    have hblank := form.behind.inside_of_mem d (hgap ▸ List.mem_cons_self)
    rw [hgap] at hrest
    rw [(List.cons.inj hrest).1] at hblank
    exact absurd hblank (by decide)

/-- Structs with a type name are determined by where they begin. -/
theorem determined_aliasedStructPattern : Determined aliasedStructPattern where
  nonempty := writes_aliasedStructPattern.not_spells_nil AliasedStructForm.text_ne_nil
  same := by
    intro word b word' b' marks marks' hs hs' he
    obtain ⟨form, rfl, rfl⟩ := writes_aliasedStructPattern.exists_of_spells hs
    obtain ⟨form', rfl, rfl⟩ := writes_aliasedStructPattern.exists_of_spells hs'
    have hopen (form : AliasedStructForm) : '\x7b' ∉ form.head :=
      form.not_mem_head (by decide) (by decide)
    have htail (form : AliasedStructForm) (b : List Char) : form.tail ++ b =
        form.members.chars ++ '\x7d' :: (form.behind.chars ++ (form.name.chars ++ ';' :: b)) := by
      simp only [AliasedStructForm.tail, List.append_assoc, List.cons_append, List.nil_append]
    rw [form.text_eq, form'.text_eq, List.append_assoc, List.append_assoc, List.cons_append,
      List.cons_append, htail, htail] at he
    obtain ⟨hhead, hbody⟩ := first_inj (hopen form) (hopen form') he
    have hfront := List.append_cancel_left hhead
    obtain ⟨hmembers, -, hrest⟩ := run_append_inj form.members.inside_of_mem
      form'.members.inside_of_mem (by decide) (by decide) hbody
    obtain ⟨hname, hb⟩ := form.behind_inj form' hrest
    have hparts (form : AliasedStructForm) : form.parts =
        (form.tag.map fun tag => tag.2.chars).elim [] (fun tag => [(Part.tag, tag)]) ++
          [(.body, form.members.chars), (.name, form.name.chars)] := by
      unfold AliasedStructForm.parts
      cases form.tag <;> rfl
    rw [hparts, hparts, form.tag_eq form' hfront, hmembers, hname]
    exact ⟨hb, rfl⟩

end HeaderExports.Grammar
