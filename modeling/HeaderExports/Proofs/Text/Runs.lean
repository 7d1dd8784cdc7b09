import HeaderExports.Marker
import HeaderExports.Text.Blank
import Mathlib.Data.List.Basic
import Mathlib.Tactic.Common

/-!
# Runs of characters in a text

A run of characters of one class ends at the first foreign character, from
whichever side it is read. Two ways to divide one text at such characters are
therefore the same. Word characters, characters of a marker and blanks are
classes that exclude each other.
-/

namespace HeaderExports.Text

variable {P : Char → Prop}

/-- A run in front of a text stops before every foreign character of it. -/
theorem append_run_before {u b l r : List Char} {z : Char} (hu : ∀ c ∈ u, P c) (hz : ¬P z)
    (he : u ++ b = l ++ z :: r) : ∃ s, l = u ++ s ∧ b = s ++ z :: r := by
  rcases List.append_eq_append_iff.mp he with ⟨s, hl, hb⟩ | ⟨s, hl, hb⟩
  · exact ⟨s, hl, hb⟩
  · cases s with
    | nil => exact ⟨[], by rw [hl, List.append_nil, List.append_nil], hb.symm⟩
    | cons d s =>
      rw [List.cons_append, List.cons.injEq] at hb
      have hm : z ∈ u := by rw [hl, hb.1]; exact List.mem_append_right l List.mem_cons_self
      exact absurd (hu z hm) hz

/-- A run behind a text starts behind every foreign character of it. -/
theorem append_run_behind {a u l r : List Char} {z : Char} (hu : ∀ c ∈ u, P c) (hz : ¬P z)
    (he : a ++ u = l ++ z :: r) : ∃ s, a = l ++ z :: s ∧ r = s ++ u := by
  rcases List.append_eq_append_iff.mp he with ⟨s, hl, hb⟩ | ⟨s, hl, hb⟩
  · have hm : z ∈ u := by rw [hb]; exact List.mem_append_right s List.mem_cons_self
    exact absurd (hu z hm) hz
  · cases s with
    | nil =>
      have hm : z ∈ u := by rw [← List.nil_append u, ← hb]; exact List.mem_cons_self
      exact absurd (hu z hm) hz
    | cons d s =>
      rw [List.cons_append, List.cons.injEq] at hb
      exact ⟨s, by rw [hl, hb.1], hb.2⟩

/-- A text that ends with a run does not end with a foreign character. -/
theorem append_run_ne {a u l : List Char} {z : Char} (hne : u ≠ []) (hu : ∀ c ∈ u, P c)
    (hz : ¬P z) : a ++ u ≠ l ++ [z] := by
  intro he
  obtain ⟨s, -, hs⟩ := append_run_behind hu hz he
  exact hne (List.append_eq_nil_iff.mp hs.symm).2

/-- Two runs of one class in front of foreign characters are the same. -/
theorem run_append_inj {u v r s : List Char} {x y : Char} (hu : ∀ c ∈ u, P c)
    (hv : ∀ c ∈ v, P c) (hx : ¬P x) (hy : ¬P y) (he : u ++ x :: r = v ++ y :: s) :
    u = v ∧ x = y ∧ r = s := by
  obtain ⟨t, ht, hb⟩ := append_run_before hu hy he
  cases t with
  | nil =>
    rw [List.nil_append, List.cons.injEq] at hb
    exact ⟨by rw [ht, List.append_nil], hb⟩
  | cons d t =>
    rw [List.cons_append, List.cons.injEq] at hb
    have hm : x ∈ v := by rw [ht, hb.1]; exact List.mem_append_right u List.mem_cons_self
    exact absurd (hv x hm) hx

/-- Two runs of one class behind foreign characters are the same. -/
theorem append_run_inj {u v l s : List Char} {x y : Char} (hu : ∀ c ∈ u, P c)
    (hv : ∀ c ∈ v, P c) (hx : ¬P x) (hy : ¬P y) (he : l ++ x :: u = s ++ y :: v) :
    l = s ∧ x = y ∧ u = v := by
  have hr := congrArg List.reverse he
  simp only [List.reverse_append, List.reverse_cons, List.append_assoc, List.singleton_append]
    at hr
  have hu' : ∀ c ∈ u.reverse, P c := fun c hm => hu c (List.mem_reverse.mp hm)
  have hv' : ∀ c ∈ v.reverse, P c := fun c hm => hv c (List.mem_reverse.mp hm)
  obtain ⟨huv, hxy, hls⟩ := run_append_inj hu' hv' hx hy hr
  exact ⟨List.reverse_inj.mp hls, hxy, List.reverse_inj.mp huv⟩

section Mark

variable {u v a b l r s : List Char} {z : Char}

/-- What does not hold a character stops before it. -/
theorem append_before (hu : z ∉ u) (he : u ++ b = l ++ z :: r) :
    ∃ s, l = u ++ s ∧ b = s ++ z :: r :=
  append_run_before (fun _ hc => ne_of_mem_of_not_mem hc hu) (fun h => h rfl) he

/-- What does not hold a character starts behind it. -/
theorem append_behind (hu : z ∉ u) (he : a ++ u = l ++ z :: r) :
    ∃ s, a = l ++ z :: s ∧ r = s ++ u :=
  append_run_behind (fun _ hc => ne_of_mem_of_not_mem hc hu) (fun h => h rfl) he

/-- What does not hold a character lies in front of it or behind it. -/
theorem append_apart {w f : List Char} (hw : z ∉ w) (he : l ++ z :: r = f ++ (w ++ b)) :
    (∃ s, l = f ++ (w ++ s)) ∨ ∃ s, f = l ++ z :: s ∧ r = s ++ (w ++ b) := by
  rcases List.append_eq_append_iff.mp he with ⟨s, rfl, hr⟩ | ⟨s, rfl, hr⟩
  · cases s with
    | nil =>
      obtain ⟨t, ht, -⟩ := append_before hw (l := []) hr.symm
      exact .inl ⟨t, by rw [← ht, List.append_nil, List.append_nil]⟩
    | cons d s =>
      rw [List.cons_append, List.cons.injEq] at hr
      exact .inr ⟨s, by rw [hr.1], hr.2⟩
  · obtain ⟨t, rfl, -⟩ := append_before hw hr
    exact .inl ⟨t, rfl⟩

/-- Texts in front of the first place of a character are the same. -/
theorem first_inj (hu : z ∉ u) (hv : z ∉ v) (he : u ++ z :: r = v ++ z :: s) : u = v ∧ r = s := by
  have hne {w : List Char} (hw : z ∉ w) : ∀ c ∈ w, c ≠ z :=
    fun _ hc => ne_of_mem_of_not_mem hc hw
  obtain ⟨huv, -, hrs⟩ := run_append_inj (hne hu) (hne hv) (fun h => h rfl) (fun h => h rfl) he
  exact ⟨huv, hrs⟩

/-- Texts behind the last place of a character are the same. -/
theorem last_inj (hu : z ∉ u) (hv : z ∉ v) (he : l ++ z :: u = s ++ z :: v) : l = s ∧ u = v := by
  have hne {w : List Char} (hw : z ∉ w) : ∀ c ∈ w, c ≠ z :=
    fun _ hc => ne_of_mem_of_not_mem hc hw
  obtain ⟨hls, -, huv⟩ := append_run_inj (hne hu) (hne hv) (fun h => h rfl) (fun h => h rfl) he
  exact ⟨hls, huv⟩

end Mark

/-- Two places of one character in a text are the same, or one of them is
behind the other. -/
theorem append_cons_split {l r l' r' : List Char} {x : Char} (he : l ++ x :: r = l' ++ x :: r') :
    (∃ t, l' = l ++ x :: t ∧ r = t ++ x :: r') ∨ (∃ t, l = l' ++ x :: t ∧ r' = t ++ x :: r) ∨
      (l = l' ∧ r = r') := by
  rcases List.append_eq_append_iff.mp he with ⟨t, hl, hr⟩ | ⟨t, hl, hr⟩
  · cases t with
    | nil => exact .inr (.inr ⟨by rw [hl, List.append_nil], (List.cons.inj hr).2⟩)
    | cons d t =>
      rw [List.cons_append, List.cons.injEq] at hr
      exact .inl ⟨t, by rw [hl, hr.1], hr.2⟩
  · cases t with
    | nil => exact .inr (.inr ⟨by rw [hl, List.append_nil], (List.cons.inj hr).2.symm⟩)
    | cons d t =>
      rw [List.cons_append, List.cons.injEq] at hr
      exact .inr (.inl ⟨t, by rw [hl, hr.1], hr.2⟩)

/-- A character that stands in a text twice has one of two texts in front. -/
theorem front_of_two {x : Char} {u v w l r : List Char} (hu : x ∉ u) (hv : x ∉ v) (hw : x ∉ w)
    (he : u ++ x :: (v ++ x :: w) = l ++ x :: r) : l = u ∨ l = u ++ x :: v := by
  rcases append_cons_split he with ⟨t, hl, hr⟩ | ⟨t, hl, -⟩ | ⟨hl, -⟩
  · rw [((List.append_cons_inj_of_notMem hv hw).mp hr).1]
    exact .inr hl
  · rw [hl] at hu
    exact absurd (List.mem_append_right l List.mem_cons_self) hu
  · exact .inl hl.symm

/-- What is read on both sides of a separator for themselves is read part by part
in a text that is joined by it. -/
theorem eq_flatMap_intercalate {β : Type} {read : List Char → List β} {separator : Char}
    (hnil : read [] = [])
    (happend : ∀ left right, read (left ++ separator :: right) = read left ++ read right)
    (parts : List (List Char)) : read ([separator].intercalate parts) = parts.flatMap read := by
  induction parts with
  | nil => exact hnil
  | cons part parts ih =>
    cases parts with
    | nil => rw [List.intercalate_singleton, List.flatMap_singleton]
    | cons next parts =>
      rw [List.intercalate_cons_cons, List.append_assoc, List.singleton_append, happend, ih]
      exact List.flatMap_cons.symm

/-- A nonempty text ends with one of its characters. -/
theorem exists_append_singleton {u : List Char} (hu : u ≠ []) :
    ∃ front last, u = front ++ [last] ∧ last ∈ u :=
  ⟨u.dropLast, u.getLast hu, (List.dropLast_concat_getLast hu).symm, List.getLast_mem hu⟩

/-- The code points of all blanks. -/
def blankPoints : List ℕ :=
  [9, 10, 11, 12, 13, 32, 133, 160, 5760, 8192, 8193, 8194, 8195, 8196, 8197, 8198, 8199, 8200,
    8201, 8202, 8232, 8233, 8239, 8287, 12288]

/-- A blank has one of the listed code points. -/
theorem toNat_mem_blankPoints {c : Char} (hb : isBlank c = true) : c.toNat ∈ blankPoints := by
  unfold isBlank Table.blank at hb
  simp only [Ranges.contains, Bool.if_false_left, Bool.and_eq_true, Bool.or_eq_true,
    Bool.not_eq_true', decide_eq_true_eq, decide_eq_false_iff_not, Bool.false_eq_true,
    or_false] at hb
  simp only [blankPoints, List.mem_cons, List.not_mem_nil, or_false]
  omega

/-- No blank is a word character or stands in a marker. -/
theorem not_isWord_of_isBlank {c : Char} (hb : isBlank c = true) :
    isWord c = false ∧ isMarkerChar c = false := by
  have hm : c ∈ blankPoints.map Char.ofNat := by
    have hpoint := List.mem_map_of_mem (f := Char.ofNat) (toNat_mem_blankPoints hb)
    rwa [Char.ofNat_toNat] at hpoint
  have hall : (blankPoints.map Char.ofNat).all
      (fun c => !isWord c && !isMarkerChar c) = true := by decide +kernel
  have hc := List.all_eq_true.mp hall c hm
  rwa [Bool.and_eq_true, Bool.not_eq_true', Bool.not_eq_true'] at hc

/-- No word character is a blank. -/
theorem isBlank_of_isWord {c : Char} (hc : isWord c = true) : isBlank c = false := by
  cases hb : isBlank c with
  | false => rfl
  | true =>
    rw [(not_isWord_of_isBlank hb).1] at hc
    exact Bool.noConfusion hc

end HeaderExports.Text
