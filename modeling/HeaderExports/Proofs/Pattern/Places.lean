import HeaderExports.Proofs.Pattern.Division

/-!
# Where the words of a scan stand

A scan reports a word by the bytes that it covers. Here such a report is tied
to the text in front of the word: what is reported stands behind a front of the
text, and every word that stands in the text begins in one that is reported.
Words that lie apart cover bytes apart, and a word inside another one covers
bytes inside.
-/

namespace HeaderExports.Text

/-- A text with a character has a byte. -/
theorem byteLength_pos {word : List Char} (hw : word ≠ []) : 0 < byteLength word := by
  obtain ⟨c, rest, rfl⟩ := List.exists_cons_of_ne_nil hw
  exact Nat.lt_of_lt_of_le c.utf8Size_pos (Nat.le_add_right _ _)

/-- The bytes that a word covers behind a front. -/
def spanBehind (front word : List Char) : Span :=
  ⟨byteLength front, byteLength front + byteLength word⟩

/-- A word with a character covers a byte. -/
theorem spanBehind_forward (front : List Char) {word : List Char} (hw : word ≠ []) :
    (spanBehind front word).start < (spanBehind front word).stop :=
  Nat.lt_add_of_pos_right (byteLength_pos hw)

/-- A word that begins behind another one starts where the other one stops, or
later. -/
theorem spanBehind_apart (front word between word' : List Char) :
    (spanBehind front word).stop ≤ (spanBehind (front ++ (word ++ between)) word').start := by
  simp only [spanBehind, byteLength_append]
  omega

/-- A word with something in front of it and behind it, in another word, starts
later and stops earlier than the other one. -/
theorem spanBehind_inside (front word : List Char) {before behind : List Char}
    (hb : before ≠ []) (hr : behind ≠ []) :
    (spanBehind front (before ++ (word ++ behind))).start <
        (spanBehind (front ++ before) word).start ∧
      (spanBehind (front ++ before) word).stop <
        (spanBehind front (before ++ (word ++ behind))).stop := by
  have hbefore := byteLength_pos hb
  have hbehind := byteLength_pos hr
  simp only [spanBehind, byteLength_append]
  omega

end HeaderExports.Text

namespace HeaderExports.Pattern

open Text (byteLength byteLength_append spanBehind)

variable {σ α : Type} {p : Pattern σ} {text : α → List Char} {parts : α → Marks σ}

/-- What a scan reports for a text written from a form behind a front. -/
def report (text : α → List Char) (parts : α → Marks σ) (front : List Char) (form : α) :
    Occurrence σ :=
  ⟨spanBehind front (text form), parts form⟩

/-- An occurrence with the bytes and the parts of a text behind a gap reports
the text, and it stops where the text does. -/
theorem eq_report {seen gap : List Char} {form : α} {found : Occurrence σ}
    (start : found.span.start = byteLength seen + byteLength gap)
    (stop : found.span.stop = found.span.start + byteLength (text form))
    (marks : found.marks = parts form) :
    found = report text parts (seen ++ gap) form ∧
      byteLength (seen ++ (gap ++ text form)) = found.span.stop := by
  rw [← byteLength_append] at start
  constructor
  · obtain ⟨⟨first, last⟩, parts'⟩ := found
    simp only at start stop marks
    rw [report, spanBehind, marks, stop, start]
  · rw [stop, start, ← byteLength_append, List.append_assoc]

/-- Every occurrence of a division reports a text that stands there. -/
theorem Division.exists_report {seen rest : List Char} {others : List (Occurrence σ)}
    (hd : Division text parts (byteLength seen) rest others) :
    ∀ found ∈ others, ∃ front form behind,
      seen ++ rest = front ++ (text form ++ behind) ∧ found = report text parts front form := by
  generalize hplace : byteLength seen = place at hd
  induction hd generalizing seen with
  | last => exact List.forall_mem_nil _
  | @word _ gap rest form found _ _ start stop marks _ ih =>
    subst hplace
    obtain ⟨hfirst, hstop⟩ := eq_report start stop marks
    refine List.forall_mem_cons.mpr ⟨⟨seen ++ gap, form, rest, by rw [List.append_assoc], hfirst⟩,
      fun other hm => ?_⟩
    obtain ⟨front, form', behind, he, hr⟩ := ih hstop other hm
    exact ⟨front, form', behind, by rw [← he]; simp only [List.append_assoc], hr⟩

/-- Every text that stands in a division begins in one that is reported. -/
theorem Division.exists_report_around (hn : ∀ form, text form ≠ []) {seen rest : List Char}
    {others : List (Occurrence σ)} (hd : Division text parts (byteLength seen) rest others)
    {front behind : List Char} {form : α} (he : rest = front ++ (text form ++ behind)) :
    ∃ front' form' behind', rest = front' ++ (text form' ++ behind') ∧
      report text parts (seen ++ front') form' ∈ others ∧ front'.length ≤ front.length ∧
      front.length < (front' ++ text form').length := by
  generalize hplace : byteLength seen = place at hd
  induction hd generalizing seen front with
  | @last _ gap silent =>
    have hlength := congrArg List.length he
    have hgap := silent front form behind (by rw [List.append_nil, he])
    have hpos := List.length_pos_iff.mpr (hn form)
    simp only [List.length_append] at hlength
    omega
  | @word _ gap rest form' found others silent start stop marks _ ih =>
    subst hplace
    obtain ⟨hfirst, hstop⟩ := eq_report start stop marks
    have hgap := silent front form behind he
    rcases Nat.lt_or_ge front.length (gap ++ text form').length with hlt | hge
    · exact ⟨gap, form', rest, rfl, hfirst ▸ List.mem_cons_self, hgap, hlt⟩
    · -- the text begins behind the word, in what the rest of the division covers
      rw [← List.append_assoc] at he
      obtain ⟨between, rfl, hrest⟩ : ∃ between, front = (gap ++ text form') ++ between ∧
          rest = between ++ (text form ++ behind) := by
        rcases List.append_eq_append_iff.mp he with ⟨s, hs, hb⟩ | ⟨s, hs, hb⟩
        · exact ⟨s, hs, hb⟩
        · have hlength := congrArg List.length hs
          simp only [List.length_append] at hlength hge
          obtain rfl := List.eq_nil_of_length_eq_zero (by omega : s.length = 0)
          exact ⟨[], by rw [hs, List.append_nil, List.append_nil], hb.symm⟩
      obtain ⟨front', form'', behind', he', hm, hle, hlt⟩ := ih hrest hstop
      refine ⟨gap ++ (text form' ++ front'), form'', behind', ?_, ?_, ?_, ?_⟩
      · rw [he']
        simp only [List.append_assoc]
      · simp only [List.append_assoc] at hm ⊢
        exact List.mem_cons_of_mem _ hm
      · simp only [List.length_append] at hle ⊢
        omega
      · simp only [List.length_append] at hlt ⊢
        omega

section Scan

variable (hw : Writes p text parts)

include hw

/-- What a scan reports stands in the text. -/
theorem exists_report_of_mem_scan (hn : ∀ form, text form ≠ []) {whole : List Char}
    {found : Occurrence σ} (hm : found ∈ p.scan whole) :
    ∃ front form behind, whole = front ++ (text form ++ behind) ∧
      found = report text parts front form := by
  have hd : Division text parts (byteLength []) whole (p.scan whole) := division_scan hw hn whole
  exact hd.exists_report found hm

/-- A scan for a pinned pattern reports every text that stands there up to
where the text ends, with the same parts. -/
theorem Pinned.exists_report (hp : Pinned p) {whole front behind : List Char} {form : α}
    (he : whole = front ++ (text form ++ behind)) :
    ∃ front' form', whole = front' ++ (text form' ++ behind) ∧
      report text parts front' form' ∈ p.scan whole ∧ parts form' = parts form := by
  have hn (form : α) : text form ≠ [] := hp.ne_nil (hw.spells form)
  have hd : Division text parts (byteLength []) whole (p.scan whole) := division_scan hw hn whole
  obtain ⟨front', form', behind', he', hm, hle, hlt⟩ := hd.exists_report_around hn he
  rw [List.nil_append] at hm
  rcases hp.apart_or_same (hw.spells form') (hw.spells form) (he'.symm.trans he) with
    ⟨between, hb⟩ | ⟨between, hb⟩ | ⟨rfl, hparts⟩
  · have hlength := congrArg List.length hb
    simp only [List.length_append] at hlength hlt
    omega
  · have hlength := congrArg List.length hb
    have hpos := List.length_pos_iff.mpr (hn form)
    simp only [List.length_append] at hlength
    omega
  · exact ⟨front', form', he', hm, hparts⟩

end Scan

end HeaderExports.Pattern
