import HeaderExports.Proofs.Grammar.Determined

/-!
# How struct-like declarations lie to each other

Two structs with members lie apart if one of them has a type name and the other
has none. A type name for a struct and a struct with members lie apart as well,
or the type name lies among the members: their characters are those that such a
line is made of, too.
-/

namespace HeaderExports.Grammar

open Pattern
open Text (isWord append_apart append_before append_behind append_run_behind)

/-! ## Type names for structs -/

/-- Behind what is no line of its own, a type name begins behind the next
semicolon at the earliest. -/
theorem AliasForm.begins_behind {form : AliasForm} {label after front rest : List Char}
    (hs : ';' ∉ label) (hl : ∀ l, label ≠ l ++ form.head "struct")
    (he : (label ++ [';']) ++ after = front ++ (form.text "struct" ++ rest)) :
    ∃ between, front = (label ++ [';']) ++ between := by
  have hsplit : label ++ ';' :: after = (front ++ form.head "struct") ++ ';' :: rest := by
    rw [form.text_eq_head] at he
    simpa only [List.append_assoc, List.cons_append, List.nil_append] using he
  obtain ⟨s, hfront, hs'⟩ := append_before hs hsplit
  cases s with
  | nil =>
    rw [List.append_nil] at hfront
    exact absurd hfront.symm (hl front)
  | cons c s =>
    rw [← (List.cons.inj hs').1] at hfront
    obtain ⟨t, ht, -⟩ :=
      append_behind (form.not_mem_head (by decide) (by decide) (by decide)) hfront
    exact ⟨t, by rw [ht, List.append_assoc, List.singleton_append]⟩

/-! ## Structs with members -/

/-- A struct with members: what stands in front of the body, the members, and
the label between the body and the semicolon. Neither the front nor the label
holds a semicolon, and the label does not end as a type name does. -/
structure Enclosure where
  /-- What stands in front of the body. -/
  head : List Char
  /-- The members. -/
  members : Token inStructBody
  /-- What stands behind the body, without the semicolon. -/
  label : List Char
  /-- The front lies within one declaration. -/
  open_head : ';' ∉ head
  /-- The label lies within one declaration. -/
  open_label : ';' ∉ label
  /-- No type name for a struct ends with the label's semicolon. -/
  label_ne : ∀ (form : AliasForm) (l : List Char), label ≠ l ++ form.head "struct"

namespace Enclosure

/-- The text of a struct with members. -/
def text (outer : Enclosure) : List Char :=
  outer.head ++ '\x7b' :: (outer.members.chars ++ '\x7d' :: (outer.label ++ [';']))

/-- What stands among the members stands between a front with the opening brace
and a rest with the closing one. -/
theorem text_of_members (outer : Enclosure) {u w v : List Char}
    (hm : outer.members.chars = u ++ (w ++ v)) :
    outer.text = (outer.head ++ '\x7b' :: u) ++
      (w ++ (v ++ '\x7d' :: (outer.label ++ [';']))) := by
  rw [text, hm]
  simp only [List.append_assoc, List.cons_append]

/-- A type name for a struct and a struct with members lie apart, or the type
name lies among the members. -/
theorem apart_or_inside (outer : Enclosure) (form : AliasForm) {a b f r : List Char}
    (he : a ++ (outer.text ++ b) = f ++ (form.text "struct" ++ r)) :
    (∃ s, a = f ++ (form.text "struct" ++ s)) ∨ (∃ s, f = a ++ (outer.text ++ s)) ∨
      ∃ u v, outer.members.chars = u ++ (form.text "struct" ++ v) ∧
        f = a ++ (outer.head ++ '\x7b' :: u) := by
  have hbrace {z : Char} (hz : isWord z = false) (hspace : z ≠ ' ') (hs : z ∉ [';'])
      (hk : z ∉ "struct".toList) : z ∉ form.text "struct" := by
    rw [form.text_eq_head]
    exact List.not_mem_append (form.not_mem_head hz hspace hk) hs
  have hopen : '\x7b' ∉ form.text "struct" :=
    hbrace (by decide) (by decide) (by decide) (by decide)
  have hclose : '\x7d' ∉ form.text "struct" :=
    hbrace (by decide) (by decide) (by decide) (by decide)
  have hsplit : (a ++ outer.head) ++ '\x7b' :: (outer.members.chars ++ '\x7d' ::
      ((outer.label ++ [';']) ++ b)) = f ++ (form.text "struct" ++ r) := by
    rw [← he, text]
    simp only [List.append_assoc, List.cons_append]
  rcases append_apart hopen hsplit with ⟨s, hs⟩ | ⟨u, rfl, hu⟩
  · -- in front of the opening brace
    rw [form.text_eq_head, List.append_assoc, List.cons_append, ← List.append_assoc f] at hs
    obtain ⟨t, rfl, -⟩ := append_behind outer.open_head hs
    refine .inl ⟨t, ?_⟩
    rw [form.text_eq_head]
    simp only [List.append_assoc, List.cons_append, List.nil_append]
  · rcases append_apart hclose hu with ⟨v, hv⟩ | ⟨s, rfl, hs⟩
    · -- between the braces
      exact .inr (.inr ⟨u, v, hv, by rw [List.append_assoc]⟩)
    · -- behind the closing brace
      obtain ⟨t, rfl⟩ := AliasForm.begins_behind outer.open_label (outer.label_ne form) hs
      refine .inr (.inl ⟨t, ?_⟩)
      rw [text]
      simp only [List.append_assoc, List.cons_append]

end Enclosure

/-- A struct without a type name as a struct with members. -/
def BracedForm.enclosure (form : BracedForm inStructBody) : Enclosure where
  head := form.head "struct "
  members := form.members
  label := []
  open_head := List.not_mem_append (by decide)
    (List.not_mem_append (form.name.not_mem (by decide)) (form.gap.not_mem (by decide)))
  open_label := List.not_mem_nil
  label_ne := by
    intro other l he
    have hnil := (List.append_eq_nil_iff.mp he.symm).2
    exact List.cons_ne_nil _ _ (List.append_eq_nil_iff.mp hnil).2

/-- The text of a struct without a type name is that of a struct with members. -/
theorem BracedForm.text_enclosure (form : BracedForm inStructBody) :
    form.enclosure.text = form.text "struct " :=
  (form.text_eq "struct ").symm

/-- A struct with a type name of its own as a struct with members. -/
def AliasedStructForm.enclosure (form : AliasedStructForm) : Enclosure where
  head := form.head
  members := form.members
  label := form.behind.chars ++ form.name.chars
  open_head := form.not_mem_head (by decide) (by decide)
  open_label :=
    List.not_mem_append (form.behind.not_mem (by decide)) (form.name.not_mem (by decide))
  label_ne := by
    intro other l he
    -- the last space of the type name would stand in the gap, and a letter in front of it
    have hlast : form.behind.chars ++ form.name.chars =
        (l ++ (aliasFront "struct" ++ ' ' :: other.tag.chars)) ++ ' ' :: other.name.chars := by
      simpa only [AliasForm.head, List.append_assoc, List.cons_append] using he
    obtain ⟨s, hs, -⟩ := append_run_behind form.name.inside_of_mem (by decide) hlast
    have hm : 't' ∈ form.behind.chars := by
      rw [hs]
      exact List.mem_append_left _ (List.mem_append_right l List.mem_cons_self)
    exact absurd (form.behind.inside_of_mem 't' hm) (by decide)

/-- The text of a struct with a type name is that of a struct with members. -/
theorem AliasedStructForm.text_enclosure (form : AliasedStructForm) :
    form.enclosure.text = form.text := by
  rw [form.text_eq, tail, ← List.append_assoc]
  rfl

/-- A struct with a type name and one without lie apart. -/
theorem AliasedStructForm.apart_braced (form : AliasedStructForm)
    (form' : BracedForm inStructBody) {a b a' b' : List Char}
    (he : a ++ (form.text ++ b) = a' ++ (form'.text "struct " ++ b')) :
    (∃ s, a' = a ++ (form.text ++ s)) ∨ ∃ s, a = a' ++ (form'.text "struct " ++ s) := by
  have hbrace : '\x7b' ∉ form'.members.chars ++ ['\x7d', ';'] :=
    List.not_mem_append (form'.members.not_mem (by decide)) (by decide)
  have hend : '\x7b' :: form.tail =
      ('\x7b' :: (form.members.chars ++ '\x7d' :: (form.behind.chars ++ form.name.chars))) ++
        [';'] := by
    simp only [tail, List.append_assoc, List.cons_append]
  have hend' : '\x7b' :: (form'.members.chars ++ ['\x7d', ';']) =
      ('\x7b' :: (form'.members.chars ++ ['\x7d'])) ++ [';'] := by
    simp only [List.append_assoc, List.cons_append, List.nil_append]
  rw [form.text_eq, form'.text_eq] at he ⊢
  rcases apart_or_same_anchor form.brace_not_mem_tail hbrace form.enclosure.open_head
    form'.enclosure.open_head hend hend' he with h | h | ⟨-, htail⟩
  · exact .inl h
  · exact .inr h
  · exact absurd htail (form.tail_append_ne form'.members.toStretch (by decide) b b')

end HeaderExports.Grammar
