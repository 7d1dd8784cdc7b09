import HeaderExports.Extraction
import HeaderExports.Proofs.Pattern.Pinned

/-!
# What is extracted depends on the marks alone

The parts of an occurrence are read off its marks, wherever it stands. What an
extractor makes of a scan is therefore made of the readings.
-/

namespace HeaderExports

/-- What is made of the marks of a scan is made of its readings. -/
theorem Pattern.map_scan_eq {σ α : Type} {p : Pattern σ} {f : Occurrence σ → α}
    (hf : ∀ found found' : Occurrence σ, found.marks = found'.marks → f found = f found')
    (text : List Char) :
    (p.scan text).map f = (p.readings text).map fun marks => f ⟨⟨0, 0⟩, marks⟩ := by
  rw [readings, List.map_map]
  exact List.map_congr_left fun found _ => hf found ⟨⟨0, 0⟩, found.marks⟩ rfl

/-- What is made of chosen marks of a scan is made of the chosen readings. -/
theorem Pattern.map_filter_scan_eq {σ α : Type} {p : Pattern σ} {f : Occurrence σ → α}
    {chosen : Occurrence σ → Bool}
    (hf : ∀ found found' : Occurrence σ, found.marks = found'.marks → f found = f found')
    (hc : ∀ found found' : Occurrence σ, found.marks = found'.marks →
      chosen found = chosen found') (text : List Char) :
    ((p.scan text).filter chosen).map f =
      ((p.readings text).filter fun marks => chosen ⟨⟨0, 0⟩, marks⟩).map
        fun marks => f ⟨⟨0, 0⟩, marks⟩ := by
  rw [readings, List.filter_map, List.map_map]
  have hsame : (p.scan text).filter chosen = (p.scan text).filter
      ((fun marks => chosen ⟨⟨0, 0⟩, marks⟩) ∘ fun found : Occurrence σ => found.marks) :=
    List.filter_congr fun found _ => hc found ⟨⟨0, 0⟩, found.marks⟩ rfl
  rw [hsame]
  exact List.map_congr_left fun found _ => hf found ⟨⟨0, 0⟩, found.marks⟩ rfl

/-- What a determined pattern reads in front of a text is made in front of what
is made of the text. -/
theorem Pattern.Determined.map_scan_append {σ α : Type} {p : Pattern σ} (hd : Determined p)
    {f : Occurrence σ → α}
    (hf : ∀ found found' : Occurrence σ, found.marks = found'.marks → f found = f found')
    {word : List Char} {marks : Marks σ} (hs : Spells p word marks) (rest : List Char) :
    (p.scan (word ++ rest)).map f = f ⟨⟨0, 0⟩, marks⟩ :: (p.scan rest).map f := by
  rw [map_scan_eq hf, map_scan_eq hf,
    readings_append_of_first? hd.nonempty (hd.first?_of_spells hs rest), List.map_cons]

namespace Occurrence

variable {found found' : Occurrence Part}

/-- The parts of an occurrence are those of its marks. -/
theorem part_congr (hm : found.marks = found'.marks) (label : Part) :
    found.part label = found'.part label := by
  rw [part, part, part?, part?, hm]

/-- The leaves of an occurrence are those of its marks. -/
theorem leaf_congr (hm : found.marks = found'.marks) (label : Part) :
    found.leaf label = found'.leaf label := by
  rw [leaf, leaf, part_congr hm]

end Occurrence

end HeaderExports
