import HeaderExports.Processing
import Mathlib.Data.List.Forall2

/-!
# A batch says of each file what processing it alone says

The files of a batch are processed independently. A marker that is refused stops a
batch as it stops a single file, before any file is looked at. Otherwise there is
an item for every path, with the outcome of processing that file alone, and an item
depends on nothing but its own file.
-/

namespace HeaderExports

/-- A marker is chosen and refused for a reason. -/
def MarkerRefused (marker : Option String) (reason : MarkerError) : Prop :=
  ∃ text, marker = some text ∧ ExportMarker.ofString text = .error reason

/-- There is no grammar exactly for a marker that is refused. -/
theorem Grammar.choose_eq_error_iff {marker : Option String} {error : ProcessError} :
    Grammar.choose marker = .error error ↔
      ∃ reason, MarkerRefused marker reason ∧ error = .marker reason := by
  cases marker with
  | none =>
    refine iff_of_false (fun h => by cases h) ?_
    rintro ⟨reason, ⟨text, h, -⟩, -⟩
    cases h
  | some text =>
    rw [choose]
    cases h : ExportMarker.ofString text with
    | ok marker =>
      refine iff_of_false (fun h => by cases h) ?_
      rintro ⟨reason, ⟨text', hm, hr⟩, -⟩
      cases hm
      rw [h] at hr
      cases hr
    | error reason =>
      constructor
      · rintro ⟨⟩
        exact ⟨reason, ⟨text, rfl, h⟩, rfl⟩
      · rintro ⟨reason', ⟨text', hm, hr⟩, rfl⟩
        cases hm
        rw [h] at hr
        cases hr
        rfl

/-- An item agrees with the outcome of processing its file alone. If a header is
extracted the item has it, with the digest and the bytes of the content that is
read. If not, the item has the message of the error and nothing else. -/
def BatchItem.AgreesWith (item : BatchItem) (content : Except FileError String) :
    Except ProcessError Header → Prop
  | .ok header => item.error = none ∧ item.header = some header ∧ ∃ text, content = .ok text ∧
      item.digest = Digest.ofText text ∧ item.size = text.utf8ByteSize
  | .error error => item.error = some error.message ∧ item.header = none ∧
      item.digest = "" ∧ item.size = 0

/-- An item has no error exactly if its file is processed. -/
theorem BatchItem.AgreesWith.error_eq_none_iff {item : BatchItem}
    {content : Except FileError String} {outcome : Except ProcessError Header}
    (ha : item.AgreesWith content outcome) :
    item.error = none ↔ ∃ header, outcome = .ok header := by
  cases outcome with
  | ok header => exact iff_of_true ha.1 ⟨header, rfl⟩
  | error error =>
    refine iff_of_false (fun h => ?_) fun ⟨header, h⟩ => by cases h
    rw [ha.1] at h
    cases h

section Accepted

variable {marker : Option String} {grammar : Grammar} (hg : Grammar.choose marker = .ok grammar)

include hg

/-- An item has the path that was given and agrees with the file processed
alone. -/
theorem processItem_agreesWith (read : FileReader) (path : String) :
    (processItem read grammar path).path = path ∧
      (processItem read grammar path).AgreesWith (read path) (processFile read marker path) := by
  unfold processItem processFile
  rw [hg]
  cases h : read path with
  | ok content =>
    have hsize : (BatchItem.ofContent grammar path content).size = content.utf8ByteSize :=
      Text.byteLength_toList content
    exact ⟨rfl, rfl, rfl, content, rfl, rfl, hsize⟩
  | error error => exact ⟨rfl, rfl, rfl, rfl, rfl⟩

/-- A batch has an item for every path. -/
theorem processFiles_of_choose (read : FileReader) (paths : List String) :
    processFiles read marker paths = .ok (paths.map (processItem read grammar)) := by
  rw [processFiles, hg]
  rfl

end Accepted

/-- An item depends on what its path reads, and on nothing else. -/
theorem processItem_congr {read read' : FileReader} {path : String} (hr : read path = read' path)
    (grammar : Grammar) : processItem read grammar path = processItem read' grammar path := by
  rw [processItem, processItem, hr]

/-- Processing files as a batch and each of them alone come to the same, however
files are read. A marker that is refused stops both with the same error, whatever
the paths. Otherwise a batch has one item for every path, in order and with that
path, which agrees with the file processed alone. An item stays the same in every
batch, whatever is read under other paths. -/
theorem processFiles_agrees (read : FileReader) (marker : Option String) :
    (∀ reason, MarkerRefused marker reason → ∀ paths path,
      processFiles read marker paths = .error (.marker reason) ∧
        processFile read marker path = .error (.marker reason)) ∧
    ((∀ reason, ¬MarkerRefused marker reason) → ∀ paths, ∃ batch,
      processFiles read marker paths = .ok batch ∧
        List.Forall₂ (fun path item => item.path = path ∧
          (item.error = none ↔ ∃ header, processFile read marker path = .ok header) ∧
          item.AgreesWith (read path) (processFile read marker path)) paths batch ∧
        ∀ (read' : FileReader) (paths' : List String), ∃ batch',
          processFiles read' marker paths' = .ok batch' ∧
            ∀ (i j : ℕ) (path : String), paths[i]? = some path → paths'[j]? = some path →
              read path = read' path → batch[i]? = batch'[j]?) := by
  constructor
  · intro reason hr paths path
    have hchoose : Grammar.choose marker = .error (.marker reason) :=
      Grammar.choose_eq_error_iff.mpr ⟨reason, hr, rfl⟩
    exact ⟨by rw [processFiles, hchoose]; rfl, by rw [processFile, hchoose]⟩
  · intro hnone paths
    cases hg : Grammar.choose marker with
    | error error =>
      obtain ⟨reason, hr, -⟩ := Grammar.choose_eq_error_iff.mp hg
      exact absurd hr (hnone reason)
    | ok grammar =>
      refine ⟨_, processFiles_of_choose hg read paths, ?_, fun read' paths' =>
        ⟨_, processFiles_of_choose hg read' paths', fun i j path hi hj hread => ?_⟩⟩
      · rw [List.forall₂_map_right_iff, List.forall₂_same]
        intro path _
        obtain ⟨hpath, hagrees⟩ := processItem_agreesWith hg read path
        exact ⟨hpath, hagrees.error_eq_none_iff, hagrees⟩
      · rw [List.getElem?_map, List.getElem?_map, hi, hj, Option.map_some, Option.map_some,
          processItem_congr hread]

end HeaderExports
