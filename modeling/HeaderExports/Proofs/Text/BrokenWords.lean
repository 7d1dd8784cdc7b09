import HeaderExports.Proofs.Pattern.Words
import HeaderExports.Proofs.Text.OneLine

/-!
# Words over line ends

A word of a text is a longest run of its word characters. A fragment of the text has
no other words, as long as it does not begin or end inside of one. When tabs and line
ends are deleted, words with nothing else between them become one word, and this is
all that happens to the words of a text that is put on one line: each word that is
left is made of whole words, and no word is cut apart.
-/

namespace HeaderExports.Text

open Pattern (Stretch Token not_mem_of_forall)

/-! ## Words of a text -/

/-- A longest run of word characters in a text. -/
structure IsWordIn (word text : List Char) : Prop where
  /-- There is a character. -/
  nonempty : word ≠ []
  /-- All of them are word characters. -/
  inside : ∀ c ∈ word, isWord c = true
  /-- The run stands in the text and goes on neither in front nor behind. -/
  stands : ∃ front behind, text = front ++ (word ++ behind) ∧
    (∀ c ∈ front.getLast?, isWord c = false) ∧ ∀ c ∈ behind.head?, isWord c = false

/-- Word characters at the start of a text are a word of it, if the next character is no
word character. -/
theorem isWordIn_append (word : Token isWord) {behind : List Char}
    (hbehind : ∀ c ∈ behind.head?, isWord c = false) :
    IsWordIn word.chars (word.chars ++ behind) :=
  ⟨word.nonempty, word.inside_of_mem, [], behind, rfl,
    fun c hc => absurd hc (Option.not_mem_none c), hbehind⟩

/-- No word goes on from one text into the other. -/
def Uncut (left right : List Char) : Prop :=
  ∀ c ∈ left.getLast?, ∀ d ∈ right.head?, isWord c = true → isWord d = false

/-- A part of a text that begins and ends inside of no word. -/
def StandsIn (part text : List Char) : Prop :=
  ∃ front behind, text = front ++ (part ++ behind) ∧ Uncut front part ∧ Uncut part behind

section Uncut

variable {left right : List Char}

/-- No word goes on behind a text that does not end with one. -/
theorem uncut_of_getLast? (hl : ∀ c ∈ left.getLast?, isWord c = false) : Uncut left right :=
  fun c hc _ _ hw => absurd ((hl c hc).symm.trans hw) Bool.false_ne_true

/-- No word goes on in a text that does not begin with one. -/
theorem uncut_of_head? (hr : ∀ c ∈ right.head?, isWord c = false) : Uncut left right :=
  fun _ _ d hd _ => hr d hd

/-- No word goes on behind a character that is in none. -/
theorem uncut_concat {c : Char} (hc : isWord c = false) (front : List Char) :
    Uncut (front ++ [c]) right := by
  refine uncut_of_getLast? fun d hd => ?_
  rw [List.getLast?_concat, Option.mem_some_iff] at hd
  exact hd ▸ hc

/-- No word goes on in a character that is in none. -/
theorem uncut_cons {c : Char} (hc : isWord c = false) (behind : List Char) :
    Uncut left (c :: behind) := by
  refine uncut_of_head? fun d hd => ?_
  rw [List.head?_cons, Option.mem_some_iff] at hd
  exact hd ▸ hc

/-- No word goes on behind blanks. -/
theorem uncut_behind_blanks {gap : List Char} (hne : gap ≠ [])
    (hb : ∀ c ∈ gap, isBlank c = true) (front : List Char) : Uncut (front ++ gap) right := by
  refine uncut_of_getLast? fun c hc => ?_
  rw [List.getLast?_append_of_ne_nil _ hne] at hc
  exact (not_isWord_of_isBlank (hb c (List.mem_of_getLast? hc))).1

/-- No word goes on in front of blanks. -/
theorem uncut_before_blanks {gap : List Char} (hne : gap ≠ [])
    (hb : ∀ c ∈ gap, isBlank c = true) (behind : List Char) : Uncut left (gap ++ behind) := by
  refine uncut_of_head? fun c hc => ?_
  rw [List.head?_append_of_ne_nil _ hne] at hc
  exact (not_isWord_of_isBlank (hb c (List.mem_of_head? hc))).1

/-- A word of a part that stands in a text is one of the text. -/
theorem IsWordIn.of_standsIn {word part text : List Char} (hw : IsWordIn word part)
    (hp : StandsIn part text) : IsWordIn word text := by
  obtain ⟨hne, hin, before, after, rfl, hbefore, hafter⟩ := hw
  obtain ⟨front, behind, rfl, hfront, hbehind⟩ := hp
  refine ⟨hne, hin, front ++ before, after ++ behind, by simp only [List.append_assoc], ?_, ?_⟩
  · cases before with
    | nil =>
      intro c hc
      rw [List.append_nil] at hc
      obtain ⟨d, rest, rfl⟩ := List.exists_cons_of_ne_nil hne
      by_contra hword
      have hd := hfront c hc d rfl (Bool.not_eq_false _ ▸ hword)
      exact absurd (hd.symm.trans (hin d List.mem_cons_self)) Bool.false_ne_true
    | cons c before =>
      rwa [List.getLast?_append_of_ne_nil _ (List.cons_ne_nil c before)]
  · cases after with
    | nil =>
      intro d hd
      obtain ⟨rest, c, rfl⟩ := List.eq_nil_or_concat word |>.resolve_left hne
      refine hbehind c ?_ d hd (hin c ?_) <;> simp
    | cons c after => exact hafter

end Uncut

/-! ## Texts without tabs and line ends -/

/-- A text without its tabs and line ends. -/
def withoutBreaks (text : List Char) : List Char := text.filter (!isLineBreaking ·)

/-- A text is put on one line by halving its spaces and deleting tabs and line ends. -/
theorem oneLine_eq (text : List Char) : oneLine text = withoutBreaks (halveSpaces text) :=
  rfl

/-- No word character is a tab or a line end. -/
theorem not_isLineBreaking_of_isWord {c : Char} (hc : isWord c = true) :
    isLineBreaking c = false := by
  rw [← Bool.not_eq_true]
  intro hb
  exact absurd (isBlank_of_isLineBreaking hb) (by rw [isBlank_of_isWord hc]; decide)

/-- No tab or line end is a word character. -/
theorem not_isWord_of_isLineBreaking {c : Char} (hc : isLineBreaking c = true) :
    isWord c = false :=
  (not_isWord_of_isBlank (isBlank_of_isLineBreaking hc)).1

/-- Tabs and line ends are deleted on both sides of a seam. -/
theorem withoutBreaks_append (left right : List Char) :
    withoutBreaks (left ++ right) = withoutBreaks left ++ withoutBreaks right :=
  List.filter_append left right

/-- A tab or a line end is deleted. -/
theorem withoutBreaks_cons_of_break {c : Char} (hc : isLineBreaking c = true) (text : List Char) :
    withoutBreaks (c :: text) = withoutBreaks text :=
  List.filter_cons_of_neg (by rw [hc]; decide)

/-- Every other character is left. -/
theorem withoutBreaks_cons {c : Char} (hc : isLineBreaking c = false) (text : List Char) :
    withoutBreaks (c :: text) = c :: withoutBreaks text :=
  List.filter_cons_of_pos (by rw [hc]; decide)

/-- Between characters that are no word characters and not deleted a fragment stands
uncut, when tabs and line ends are deleted. -/
theorem standsIn_withoutBreaks {opening closing : Char}
    (ho : isWord opening = false ∧ isLineBreaking opening = false)
    (hc : isWord closing = false ∧ isLineBreaking closing = false)
    (front fragment behind : List Char) :
    StandsIn (withoutBreaks fragment)
      (withoutBreaks (front ++ opening :: (fragment ++ closing :: behind))) := by
  refine ⟨withoutBreaks front ++ [opening], closing :: withoutBreaks behind, ?_,
    uncut_concat ho.1 _, uncut_cons hc.1 _⟩
  rw [withoutBreaks_append, withoutBreaks_cons ho.2, withoutBreaks_append,
    withoutBreaks_cons hc.2, List.append_assoc, List.singleton_append]

/-- Halving spaces does not change what a text begins with. -/
theorem head?_withoutBreaks_halveSpaces (text : List Char) :
    (withoutBreaks (halveSpaces text)).head? = (withoutBreaks text).head? := by
  fun_induction halveSpaces text with
  | case1 rest ih => rfl
  | case2 c rest hc ih =>
    cases hb : isLineBreaking c with
    | true => rw [withoutBreaks_cons_of_break hb, withoutBreaks_cons_of_break hb, ih]
    | false => rw [withoutBreaks_cons hb, withoutBreaks_cons hb, List.head?_cons, List.head?_cons]
  | case3 => rfl

/-- What stands on one line and has no space stood there before its spaces were halved,
between the same characters. -/
theorem exists_append_of_oneLine {text front word behind : List Char} (hne : word ≠ [])
    (hs : ' ' ∉ word) (he : oneLine text = front ++ (word ++ behind)) :
    ∃ front' behind', withoutBreaks text = front' ++ (word ++ behind') ∧
      front'.getLast? = front.getLast? ∧ behind'.head? = behind.head? := by
  rw [oneLine_eq] at he
  fun_induction halveSpaces text generalizing front word with
  | case1 rest ih =>
    have hspace (text : List Char) : withoutBreaks (' ' :: text) = ' ' :: withoutBreaks text :=
      withoutBreaks_cons (by decide) text
    rw [hspace] at he
    rw [hspace, hspace]
    cases front with
    | nil =>
      obtain ⟨d, more, rfl⟩ := List.exists_cons_of_ne_nil hne
      exact absurd (List.mem_cons.mpr (.inl (List.cons.inj he).1)) hs
    | cons d front =>
      obtain ⟨rfl, hrest⟩ := List.cons.inj he
      obtain ⟨front', behind', hfront, hlast, hhead⟩ := ih hne hs hrest
      refine ⟨' ' :: ' ' :: front', behind', by rw [hfront]; rfl, ?_, hhead⟩
      rw [List.getLast?_cons_cons, List.getLast?_cons, List.getLast?_cons, hlast]
  | case2 c rest hc ih =>
    cases hb : isLineBreaking c with
    | true =>
      rw [withoutBreaks_cons_of_break hb] at he ⊢
      exact ih hne hs he
    | false =>
      rw [withoutBreaks_cons hb] at he ⊢
      cases front with
      | cons d front =>
        obtain ⟨rfl, hrest⟩ := List.cons.inj he
        obtain ⟨front', behind', hfront, hlast, hhead⟩ := ih hne hs hrest
        refine ⟨c :: front', behind', by rw [hfront]; rfl, ?_, hhead⟩
        rw [List.getLast?_cons, List.getLast?_cons, hlast]
      | nil =>
        obtain ⟨d, more, rfl⟩ := List.exists_cons_of_ne_nil hne
        obtain ⟨rfl, hrest⟩ := List.cons.inj he
        by_cases hmore : more = []
        · subst hmore
          refine ⟨[], withoutBreaks rest, rfl, rfl, ?_⟩
          rw [← head?_withoutBreaks_halveSpaces, hrest]
          rfl
        · obtain ⟨front', behind', hfront, hlast, hhead⟩ :=
            @ih [] more hmore (fun hm => hs (List.mem_cons_of_mem c hm)) hrest
          obtain rfl := List.getLast?_eq_none_iff.mp hlast
          exact ⟨[], behind', by rw [hfront]; rfl, rfl, hhead⟩
  | case3 => exact absurd (List.append_eq_nil_iff.mp (List.append_eq_nil_iff.mp he.symm).2).1 hne

/-- A text on one line has no words but those that it has without tabs and line ends. -/
theorem IsWordIn.of_oneLine {word text : List Char} (hw : IsWordIn word (oneLine text)) :
    IsWordIn word (withoutBreaks text) := by
  obtain ⟨hne, hin, front, behind, he, hfront, hbehind⟩ := hw
  have hspace : ' ' ∉ word := not_mem_of_forall hin (by decide)
  obtain ⟨front', behind', he', hlast, hhead⟩ := exists_append_of_oneLine hne hspace he
  exact ⟨hne, hin, front', behind', he', hlast ▸ hfront, hhead ▸ hbehind⟩

/-! ## Words written over line ends -/

/-- Words with nothing but tabs and line ends between them. -/
structure BrokenWord where
  /-- The first word. -/
  first : Token isWord
  /-- Further words, each with what stands in front of it. -/
  more : List (Token isLineBreaking × Token isWord)

namespace BrokenWord

/-- All words. -/
def parts (broken : BrokenWord) : List (Token isWord) := broken.first :: broken.more.map (·.2)

/-- The words with what stands between them. -/
def written (broken : BrokenWord) : List Char :=
  broken.first.chars ++ broken.more.flatMap fun part => part.1.chars ++ part.2.chars

/-- The words with nothing between them. -/
def joined (broken : BrokenWord) : List Char := broken.parts.flatMap (·.chars)

/-- A single word has nothing between its parts. -/
theorem joined_of_more_eq_nil {broken : BrokenWord} (hm : broken.more = []) :
    broken.joined = broken.first.chars := by
  rw [joined, parts, hm, List.map_nil, List.flatMap_cons, List.flatMap_nil, List.append_nil]

/-- Where words are written over line ends and go on neither in front nor behind, each
of them is a word of the text. -/
theorem isWordIn_of_mem_parts (broken : BrokenWord) {front behind : List Char}
    (hfront : ∀ c ∈ front.getLast?, isWord c = false)
    (hbehind : ∀ c ∈ behind.head?, isWord c = false) :
    ∀ part ∈ broken.parts, IsWordIn part.chars (front ++ (broken.written ++ behind)) := by
  obtain ⟨first, more⟩ := broken
  induction more generalizing front first with
  | nil =>
    refine List.forall_mem_singleton.mpr
      ⟨first.nonempty, first.inside_of_mem, front, behind, ?_, hfront, hbehind⟩
    rw [written, List.flatMap_nil, List.append_nil]
  | cons next more ih =>
    obtain ⟨gap, second⟩ := next
    obtain ⟨c, gap', hgap⟩ := List.exists_cons_of_ne_nil gap.nonempty
    have hin (d : Char) (hd : d ∈ gap.chars) : isWord d = false :=
      not_isWord_of_isLineBreaking (gap.inside_of_mem d hd)
    have hwritten : front ++ (written ⟨first, (gap, second) :: more⟩ ++ behind) =
        (front ++ (first.chars ++ gap.chars)) ++ (written ⟨second, more⟩ ++ behind) := by
      simp only [written, List.flatMap_cons, List.append_assoc]
    refine List.forall_mem_cons.mpr ⟨⟨first.nonempty, first.inside_of_mem, front,
      gap.chars ++ (written ⟨second, more⟩ ++ behind), ?_, hfront, fun d hd => ?_⟩, ?_⟩
    · rw [hwritten, List.append_assoc, List.append_assoc]
    · rw [List.head?_append_of_ne_nil _ gap.nonempty] at hd
      exact hin d (List.mem_of_head? hd)
    · rw [hwritten]
      refine ih (fun d hd => ?_) second
      rw [← List.append_assoc, List.getLast?_append_of_ne_nil _ gap.nonempty] at hd
      exact hin d (List.mem_of_getLast? hd)

/-- What is a run of word characters without its tabs and line ends is written over
them, but for what stands at its edges. -/
theorem exists_of_withoutBreaks {text : List Char} (hne : withoutBreaks text ≠ [])
    (hin : ∀ c ∈ withoutBreaks text, isWord c = true) :
    ∃ (lead trail : Stretch isLineBreaking) (broken : BrokenWord),
      text = lead.chars ++ (broken.written ++ trail.chars) ∧
        broken.joined = withoutBreaks text := by
  have hnone : ∀ c ∈ ([] : List Char), isLineBreaking c = true := List.forall_mem_nil _
  induction text with
  | nil => exact absurd rfl hne
  | cons c rest ih =>
    cases hb : isLineBreaking c with
    | true =>
      rw [withoutBreaks_cons_of_break hb] at hne hin ⊢
      obtain ⟨lead, trail, broken, he, hjoined⟩ := ih hne hin
      have hlead : ∀ d ∈ c :: lead.chars, isLineBreaking d = true :=
        List.forall_mem_cons.mpr ⟨hb, lead.inside_of_mem⟩
      exact ⟨⟨c :: lead.chars, hlead⟩, trail, broken, by rw [he]; rfl, hjoined⟩
    | false =>
      rw [withoutBreaks_cons hb] at hin ⊢
      obtain ⟨hc, hrest⟩ := List.forall_mem_cons.mp hin
      let single : Token isWord := ⟨⟨[c], List.forall_mem_singleton.mpr hc⟩, List.cons_ne_nil _ _⟩
      by_cases hnil : withoutBreaks rest = []
      · have hbreaks : ∀ d ∈ rest, isLineBreaking d = true := by
          simpa [withoutBreaks] using hnil
        exact ⟨⟨[], hnone⟩, ⟨rest, hbreaks⟩, ⟨single, []⟩, rfl, by rw [hnil]; rfl⟩
      obtain ⟨lead, trail, ⟨first, more⟩, he, hjoined⟩ := ih hnil hrest
      by_cases hlead : lead.chars = []
      · let longer : Token isWord := ⟨⟨c :: first.chars,
          List.forall_mem_cons.mpr ⟨hc, first.inside_of_mem⟩⟩, List.cons_ne_nil _ _⟩
        rw [hlead, List.nil_append] at he
        exact ⟨⟨[], hnone⟩, trail, ⟨longer, more⟩, by rw [he]; rfl, by rw [← hjoined]; rfl⟩
      · refine ⟨⟨[], hnone⟩, trail, ⟨single, (⟨lead, hlead⟩, first) :: more⟩, ?_, ?_⟩
        · rw [he]
          simp only [written, List.flatMap_cons, List.append_assoc, List.nil_append, single,
            List.cons_append]
        · rw [← hjoined]
          rfl

end BrokenWord

/-- A word at the end of a text is at its end without tabs and line ends. -/
theorem not_isWord_of_getLast? {text : List Char}
    (ht : ∀ c ∈ (withoutBreaks text).getLast?, isWord c = false) :
    ∀ c ∈ text.getLast?, isWord c = false := by
  intro c hc
  rw [← Bool.not_eq_true]
  intro hword
  obtain ⟨init, rfl⟩ := List.getLast?_eq_some_iff.mp hc
  rw [withoutBreaks_append, withoutBreaks_cons (not_isLineBreaking_of_isWord hword),
    List.getLast?_append_of_ne_nil _ (List.cons_ne_nil _ _)] at ht
  exact absurd ((ht c rfl).symm.trans hword) Bool.false_ne_true

/-- A word at the beginning of a text is there without tabs and line ends. -/
theorem not_isWord_of_head? {text : List Char}
    (ht : ∀ c ∈ (withoutBreaks text).head?, isWord c = false) :
    ∀ c ∈ text.head?, isWord c = false := by
  intro c hc
  rw [← Bool.not_eq_true]
  intro hword
  obtain ⟨rest, rfl⟩ := List.head?_eq_some_iff.mp hc
  rw [withoutBreaks_cons (not_isLineBreaking_of_isWord hword)] at ht
  exact absurd ((ht c rfl).symm.trans hword) Bool.false_ne_true

/-- Each word that a text has without its tabs and line ends is made of words of the
text that have nothing else between them, and no further word is joined to them. -/
theorem IsWordIn.exists_brokenWord {word text : List Char}
    (hw : IsWordIn word (withoutBreaks text)) :
    ∃ broken : BrokenWord, broken.joined = word ∧ StandsIn broken.written text ∧
      ∀ part ∈ broken.parts, IsWordIn part.chars text := by
  obtain ⟨hne, hin, front, behind, he, hfront, hbehind⟩ := hw
  obtain ⟨before, rest, rfl, rfl, hrest⟩ := List.filter_eq_append_iff.mp he
  obtain ⟨middle, after, rfl, rfl, rfl⟩ := List.filter_eq_append_iff.mp hrest
  obtain ⟨lead, trail, broken, rfl, hjoined⟩ := BrokenWord.exists_of_withoutBreaks hne hin
  have hdeleted (gap : Stretch isLineBreaking) : withoutBreaks gap.chars = [] :=
    List.filter_eq_nil_iff.mpr fun c hc => by rw [gap.inside_of_mem c hc]; decide
  have hlast : ∀ c ∈ (before ++ lead.chars).getLast?, isWord c = false := by
    refine not_isWord_of_getLast? ?_
    rwa [withoutBreaks_append, hdeleted, List.append_nil]
  have hhead : ∀ c ∈ (trail.chars ++ after).head?, isWord c = false := by
    refine not_isWord_of_head? ?_
    rwa [withoutBreaks_append, hdeleted, List.nil_append]
  have hwhole : before ++ (lead.chars ++ (broken.written ++ trail.chars) ++ after) =
      (before ++ lead.chars) ++ (broken.written ++ (trail.chars ++ after)) := by
    simp only [List.append_assoc]
  rw [hwhole]
  exact ⟨broken, hjoined, ⟨before ++ lead.chars, trail.chars ++ after, rfl,
    uncut_of_getLast? hlast, uncut_of_head? hhead⟩, broken.isWordIn_of_mem_parts hlast hhead⟩

/-- No two words of a text have nothing but tabs and line ends between them. -/
def WordsApart (text : List Char) : Prop :=
  ∀ (left right : Token isWord) (gap : Token isLineBreaking),
    ¬(left.chars ++ (gap.chars ++ right.chars)) <:+: text

/-- Without tabs and line ends words are apart. -/
theorem wordsApart_of_any {text : List Char} (ht : text.any isLineBreaking = false) :
    WordsApart text := by
  intro left right gap hi
  obtain ⟨c, rest, hgap⟩ := List.exists_cons_of_ne_nil gap.nonempty
  have hc : c ∈ gap.chars := hgap ▸ List.mem_cons_self
  have hm : c ∈ text := hi.subset (List.mem_append_right _ (List.mem_append_left _ hc))
  exact List.any_eq_false.mp ht c hm (gap.inside_of_mem c hc)

/-- Where words are apart, none is written over a line end. -/
theorem WordsApart.more_eq_nil {text : List Char} (ht : WordsApart text) {broken : BrokenWord}
    (hb : StandsIn broken.written text) : broken.more = [] := by
  obtain ⟨first, _ | ⟨⟨gap, second⟩, more⟩⟩ := broken
  · rfl
  · obtain ⟨front, behind, rfl, -, -⟩ := hb
    refine absurd ⟨front, (more.flatMap fun part => part.1.chars ++ part.2.chars) ++ behind, ?_⟩
      (ht first second gap)
    simp only [BrokenWord.written, List.flatMap_cons, List.append_assoc]

end HeaderExports.Text
