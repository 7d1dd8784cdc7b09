import HeaderExports.Proofs.Pattern.Pinned
import HeaderExports.Proofs.Pattern.Words

/-!
# Scanning a text line by line

A text is made of lines, each of which is a word and an ending. If a pattern
either reads exactly the word of a line or begins nowhere in the line, then a
scan of the text finds the words of those lines that it reads, each at its
place, and nothing else. The lines behind may be of any kind.
-/

namespace HeaderExports.Pattern

open Text (byteLength byteLength_append)

variable {σ : Type} {p : Pattern σ}

/-- No word of the pattern begins in a line, however far it would reach into
the text behind the line. -/
def Silent (p : Pattern σ) (line after : List Char) : Prop :=
  ∀ (front word behind : List Char) (marks : Marks σ), Spells p word marks →
    line ++ after = front ++ (word ++ behind) → line.length ≤ front.length

/-- Where no word begins at the first character none begins in the rest of the
line either. -/
theorem Silent.tail {c : Char} {line after : List Char} (hs : Silent p (c :: line) after) :
    Silent p line after := by
  intro front word behind marks hw he
  have h := hs (c :: front) word behind marks hw (by rw [List.cons_append, he, List.cons_append])
  simpa only [List.length_cons, Nat.add_le_add_iff_right] using h

/-- At the start of a silent line nothing can be read. -/
theorem Silent.first?_eq_none {c : Char} {line after : List Char}
    (hs : Silent p (c :: line) after) : first? p (c :: line ++ after) = none := by
  rw [← Option.not_isSome_iff_eq_none, first?_isSome_iff]
  rintro ⟨word, rest, marks, he, hw⟩
  have h := hs [] word rest marks hw he
  simp only [List.length_cons, List.length_nil] at h
  omega

/-- A line is silent if no word begins with any of its characters. -/
theorem silent_of_forall {line : List Char}
    (hn : ∀ marks : Marks σ, ¬Spells p [] marks)
    (hl : ∀ c ∈ line, ∀ (rest : List Char) (marks : Marks σ), ¬Spells p (c :: rest) marks)
    (after : List Char) : Silent p line after := by
  intro front word behind marks hw he
  by_contra hlt
  have hlt := Nat.lt_of_not_le hlt
  cases word with
  | nil => exact hn _ hw
  | cons d word =>
    have hd : (line ++ after)[front.length]? = some d := by
      rw [he, List.getElem?_append_right (Nat.le_refl _), Nat.sub_self]
      rfl
    rw [List.getElem?_append_left hlt] at hd
    exact hl d (List.mem_of_getElem? hd) word marks hw

/-! ## Lines without the anchor of a word -/

/-- A text with an anchor that begins in a line has the anchor in the line, or
the line ends in front of the anchor. -/
theorem anchor_in_line {line after front head tail : List Char} {x : Char}
    (he : (line ++ ['\n']) ++ after = front ++ (head ++ x :: tail))
    (hl : front.length < (line ++ ['\n']).length) (hx : x ≠ '\n') :
    (∃ rest, line = (front ++ head) ++ x :: rest ∧ tail = rest ++ '\n' :: after) ∨
      ∃ s t, head = s ++ '\n' :: t ∧ after = t ++ x :: tail := by
  rw [List.append_assoc, List.singleton_append, ← List.append_assoc front] at he
  rcases List.append_eq_append_iff.mp he with ⟨s, hs, hb⟩ | ⟨s, hs, hb⟩
  · cases s with
    | nil => exact absurd (List.cons.inj hb).1.symm hx
    | cons d s =>
      obtain ⟨rfl, rfl⟩ := List.cons.inj hb
      rw [List.length_append, List.length_singleton] at hl
      rcases List.append_eq_append_iff.mp hs with ⟨t, ht, hc⟩ | ⟨t, ht, hc⟩
      · exact .inr ⟨t, s, hc, rfl⟩
      · have hlength := congrArg List.length ht
        rw [List.length_append] at hlength
        obtain rfl := List.eq_nil_of_length_eq_zero (by omega : t.length = 0)
        exact .inr ⟨[], s, hc.symm, rfl⟩
  · cases s with
    | nil => exact absurd (List.cons.inj hb).1 hx
    | cons d s =>
      obtain ⟨rfl, rfl⟩ := List.cons.inj hb
      exact .inl ⟨s, hs, rfl⟩

/-- A line is silent for a pattern whose words hold an anchor, if the heads of
words neither reach into the next line up to an anchor there, nor fit in front
of an anchor in the line together with the tail behind. -/
theorem silent_of_anchor {α : Type} {text : α → List Char} {parts : α → Marks σ}
    (hw : Writes p text parts) {x : Char} {head tail : α → List Char}
    (ht : ∀ form, text form = head form ++ x :: tail form) (hx : x ≠ '\n')
    {line after : List Char}
    (hnext : ∀ form s t rest, head form = s ++ '\n' :: t → after ≠ t ++ x :: rest)
    (hline : ∀ form front rest behind, line = (front ++ head form) ++ x :: rest →
      tail form ++ behind ≠ rest ++ '\n' :: after) :
    Silent p (line ++ ['\n']) after := by
  intro front word behind marks hs he
  by_contra hl
  obtain ⟨form, rfl, -⟩ := hw.exists_of_spells hs
  rw [ht form, List.append_assoc (head form), List.cons_append] at he
  rcases anchor_in_line he (Nat.lt_of_not_le hl) hx with ⟨rest, hrest, htail⟩ | ⟨s, t, hs, hafter⟩
  · exact hline form front rest behind hrest htail
  · exact hnext form s t _ hs hafter

section Scan

variable (hn : ∀ marks : Marks σ, ¬Spells p [] marks)

include hn

/-- Without empty words it does not matter whether a scan stands directly
behind a reading. -/
theorem scanFrom_fresh (place : ℕ) (fresh : Bool) (text : List Char) :
    scanFrom p place 0 fresh text = scanFrom p place 0 true text := by
  cases text with
  | nil => simp only [scanFrom, first?_nil_eq_none hn]
  | cons c rest =>
    cases hr : first? p (c :: rest) with
    | none => rw [scanFrom_cons_of_none hr, scanFrom_cons_of_none hr]
    | some run =>
      obtain ⟨word, hne, he, -⟩ := exists_of_first? hn hr
      rw [he] at hr ⊢
      rw [scanFrom_of_first? hne hr, scanFrom_of_first? hne hr]

/-- A scan passes over a silent line. -/
theorem scanFrom_of_silent {line after : List Char} (hs : Silent p line after) (place : ℕ)
    (fresh : Bool) :
    scanFrom p place 0 fresh (line ++ after) =
      scanFrom p (place + byteLength line) 0 true after := by
  induction line generalizing place fresh with
  | nil => exact scanFrom_fresh hn place fresh after
  | cons c line ih =>
    have hr := hs.first?_eq_none
    rw [List.cons_append] at hr ⊢
    rw [scanFrom_cons_of_none hr, ih hs.tail, byteLength, Nat.add_assoc]

end Scan

/-- Nothing is found in a text in which no word of the pattern stands. -/
theorem scan_eq_nil {text : List Char}
    (ht : ∀ (word : List Char) (marks : Marks σ), Spells p word marks → ¬word <:+: text) :
    p.scan text = [] := by
  have hn : ∀ marks : Marks σ, ¬Spells p [] marks := fun marks hs => ht [] marks hs List.nil_infix
  have hsilent : Silent p text [] := by
    intro front word behind marks hs he
    rw [List.append_nil] at he
    exact absurd ⟨front, behind, by rw [he, List.append_assoc]⟩ (ht word marks hs)
  have h := scanFrom_of_silent hn hsilent 0 true
  rw [List.append_nil] at h
  rw [scan, h, scanFrom, first?_nil_eq_none hn]

/-! ## Texts made of lines -/

/-- How a pattern reads a line: it reads the word and marks it so, or it begins
nowhere in the line. -/
def ReadsLine (p : Pattern σ) (found : Option (Marks σ)) (word ending after : List Char) : Prop :=
  match found with
  | none => Silent p (word ++ ending) after
  | some marks => first? p (word ++ (ending ++ after)) = some (marks, ending ++ after) ∧
      Silent p ending after

section Lines

variable {δ : Type} (word ending : δ → List Char) (found : δ → Option (Marks σ))

/-- The words of the lines that are read, each at its place. -/
def placed : ℕ → List δ → List (Occurrence σ)
  | _, [] => []
  | place, line :: lines =>
    let more := placed (place + byteLength (word line ++ ending line)) lines
    match found line with
    | none => more
    | some marks => ⟨⟨place, place + byteLength (word line)⟩, marks⟩ :: more

/-- The word of the first line is placed in front of those of the others. -/
theorem placed_cons (place : ℕ) (line : δ) (lines : List δ) :
    placed word ending found place (line :: lines) =
      match found line with
      | none => placed word ending found (place + byteLength (word line ++ ending line)) lines
      | some marks => ⟨⟨place, place + byteLength (word line)⟩, marks⟩ ::
          placed word ending found (place + byteLength (word line ++ ending line)) lines := rfl

/-- The lines one behind the other. -/
def linesText (lines : List δ) : List Char := lines.flatMap fun line => word line ++ ending line

/-- From any place on, a scan of a text made of lines finds the words of the
lines that are read. -/
theorem scanFrom_linesText (hn : ∀ marks : Marks σ, ¬Spells p [] marks)
    (hr : ∀ line lines, ReadsLine p (found line) (word line) (ending line)
      (linesText word ending lines)) (place : ℕ) (lines : List δ) :
    scanFrom p place 0 true (linesText word ending lines) =
      placed word ending found place lines := by
  induction lines generalizing place with
  | nil => simp only [linesText, placed, List.flatMap_nil, scanFrom, first?_nil_eq_none hn]
  | cons line lines ih =>
    have hline := hr line lines
    have htext : linesText word ending (line :: lines) =
        (word line ++ ending line) ++ linesText word ending lines := List.flatMap_cons
    rw [htext]
    rw [placed_cons]
    cases hf : found line with
    | none =>
      rw [hf] at hline
      rw [scanFrom_of_silent hn hline]
      exact ih _
    | some marks =>
      rw [hf] at hline
      have hne : word line ≠ [] := by
        intro hw
        obtain ⟨u, hu, he, -⟩ := exists_of_first? hn hline.1
        have hlength := congrArg List.length he
        have hpos := List.length_pos_iff.mpr hu
        simp only [hw, List.length_append, List.length_nil] at hlength
        omega
      rw [List.append_assoc, scanFrom_of_first? hne hline.1, scanFrom_of_silent hn hline.2,
        byteLength_append, ← Nat.add_assoc]
      exact congrArg _ (ih _)

/-- What is made of the marks of placed words does not depend on their places. -/
theorem map_placed {α : Type} {f : Occurrence σ → α}
    (hf : ∀ found found' : Occurrence σ, found.marks = found'.marks → f found = f found')
    (place : ℕ) (lines : List δ) :
    (placed word ending found place lines).map f =
      lines.filterMap fun line => (found line).map fun marks => f ⟨⟨0, 0⟩, marks⟩ := by
  induction lines generalizing place with
  | nil => rfl
  | cons line lines ih =>
    rw [placed_cons]
    cases h : found line with
    | none =>
      rw [List.filterMap_cons_none (by rw [h]; rfl)]
      exact ih _
    | some marks =>
      rw [List.filterMap_cons_some (by rw [h]; rfl), List.map_cons]
      exact congrArg₂ _ (hf _ _ rfl) (ih _)

/-- Placed words lie behind the place from which on they are placed. -/
theorem le_start_of_mem_placed {place : ℕ} {lines : List δ} {x : Occurrence σ}
    (hx : x ∈ placed word ending found place lines) : place ≤ x.span.start := by
  induction lines generalizing place with
  | nil => cases hx
  | cons line lines ih =>
    rw [placed_cons] at hx
    split at hx
    · have h := ih hx
      omega
    · rcases List.mem_cons.mp hx with rfl | hx
      · exact Nat.le_refl _
      · have h := ih hx
        omega

/-- Placed words have bytes if the words have characters. -/
theorem start_lt_stop_of_mem_placed (hw : ∀ line, word line ≠ []) {place : ℕ} {lines : List δ}
    {x : Occurrence σ} (hx : x ∈ placed word ending found place lines) :
    x.span.start < x.span.stop := by
  induction lines generalizing place with
  | nil => cases hx
  | cons line lines ih =>
    rw [placed_cons] at hx
    split at hx
    · exact ih hx
    · rcases List.mem_cons.mp hx with rfl | hx
      · obtain ⟨c, rest, hc⟩ := List.exists_cons_of_ne_nil (hw line)
        have hpos := c.utf8Size_pos
        simp only [hc, byteLength]
        omega
      · exact ih hx

/-- Words of lines that are read differently lie apart. -/
theorem placed_apart {found' : δ → Option (Marks σ)}
    (hf : ∀ line, found line = none ∨ found' line = none) {place : ℕ} {lines : List δ}
    {x y : Occurrence σ} (hx : x ∈ placed word ending found place lines)
    (hy : y ∈ placed word ending found' place lines) :
    x.span.stop ≤ y.span.start ∨ y.span.stop ≤ x.span.start := by
  induction lines generalizing place with
  | nil => cases hx
  | cons line lines ih =>
    have hword : byteLength (word line) ≤ byteLength (word line ++ ending line) := by
      rw [byteLength_append]
      exact Nat.le_add_right _ _
    rw [placed_cons] at hx hy
    rcases hf line with h | h
    · rw [h] at hx
      split at hy
      · exact ih hx hy
      · rcases List.mem_cons.mp hy with rfl | hy
        · have hb := le_start_of_mem_placed word ending found hx
          right
          simp only
          omega
        · exact ih hx hy
    · rw [h] at hy
      split at hx
      · exact ih hx hy
      · rcases List.mem_cons.mp hx with rfl | hx
        · have hb := le_start_of_mem_placed word ending found' hy
          left
          simp only
          omega
        · exact ih hx hy

end Lines

end HeaderExports.Pattern
