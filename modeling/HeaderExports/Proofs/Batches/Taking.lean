import HeaderExports.Proofs.Batches.Files

/-!
# A header of a batch is handed out once

Taking the header of an item leaves the item without it. Along any sequence of
takings the first one at an item gives what was extracted from its file and every
later one gives nothing; all else about the items stays as it is. The description
of an item follows what has been taken.
-/

namespace HeaderExports

/-- Take headers one after the other, each out of the batch that is left by the
takings before: what each of them gives, and the batch that is left in the end. -/
def takeHeaders? (batch : List BatchItem) :
    List ℕ → Option (List (Option Header) × List BatchItem)
  | [] => some ([], batch)
  | position :: later =>
    (takeHeader? batch position).bind fun taken =>
      (takeHeaders? taken.2.2 later).map fun more => (taken.1 :: more.1, more.2)

/-- What takings at given positions give: a header the first time that it is asked
for, and nothing from then on. -/
def handedOut (batch : List BatchItem) (positions : List ℕ) : List (Option Header) :=
  positions.mapIdx fun i position =>
    if position ∈ positions.take i then none else batch[position]?.bind (·.header)

/-- A batch without the headers at given positions. -/
def emptied (batch : List BatchItem) (positions : List ℕ) : List BatchItem :=
  batch.mapIdx fun q item => if q ∈ positions then item.take.2 else item

section Emptied

variable {batch : List BatchItem} {position : ℕ}

/-- The items of a batch without some of its headers. -/
theorem getElem?_emptied (batch : List BatchItem) (positions : List ℕ) (q : ℕ) :
    (emptied batch positions)[q]? =
      batch[q]?.map fun item => if q ∈ positions then item.take.2 else item :=
  List.getElem?_mapIdx

/-- A taking gives the header of the item and empties this item alone. -/
theorem takeHeader?_eq (hp : position < batch.length) :
    takeHeader? batch position =
      some (batch[position].header, batch[position].take.2, emptied batch [position]) := by
  have hset : batch.set position batch[position].take.2 = emptied batch [position] := by
    refine List.ext_getElem? fun q => ?_
    rw [getElem?_emptied]
    by_cases hq : q = position
    · simp [hq, hp]
    · simp [List.getElem?_set_ne (Ne.symm hq), hq]
  rw [takeHeader?, List.getElem?_eq_getElem hp, Option.map_some]
  simp only [hset]
  rfl

/-- Headers may be taken at one position after the other. -/
theorem emptied_emptied (position : ℕ) (later : List ℕ) :
    emptied (emptied batch [position]) later = emptied batch (position :: later) := by
  refine List.ext_getElem? fun q => ?_
  rw [getElem?_emptied, getElem?_emptied, getElem?_emptied, Option.map_map]
  refine congrArg (Option.map · batch[q]?) (funext fun item => ?_)
  by_cases hq : q = position
  · simp [hq, BatchItem.take]
  · simp [hq]

/-- The takings behind the first one find the batch that it leaves. -/
theorem handedOut_cons (position : ℕ) (later : List ℕ) :
    handedOut batch (position :: later) =
      batch[position]?.bind (·.header) :: handedOut (emptied batch [position]) later := by
  have hfirst : position ∉ (position :: later).take 0 := List.not_mem_nil
  rw [handedOut, handedOut, List.mapIdx_cons, if_neg hfirst]
  refine congrArg _ (List.ext_getElem? fun i => ?_)
  rw [List.getElem?_mapIdx, List.getElem?_mapIdx]
  refine congrArg (Option.map · later[i]?) (funext fun next => ?_)
  rw [List.take_succ_cons, getElem?_emptied]
  by_cases hn : next = position
  · subst hn
    cases batch[next]? <;> simp [BatchItem.take]
  · simp [hn]

end Emptied

/-- Takings at items of a batch give each header once and leave the others. -/
theorem takeHeaders?_eq {batch : List BatchItem} {positions : List ℕ}
    (hp : ∀ position ∈ positions, position < batch.length) :
    takeHeaders? batch positions = some (handedOut batch positions, emptied batch positions) := by
  induction positions generalizing batch with
  | nil =>
    have hall : emptied batch [] = batch := by
      refine List.ext_getElem? fun q => ?_
      simp [getElem?_emptied]
    rw [takeHeaders?, hall]
    rfl
  | cons position later ih =>
    obtain ⟨hfirst, hlater⟩ := List.forall_mem_cons.mp hp
    have hleft : ∀ next ∈ later, next < (emptied batch [position]).length := by
      rw [emptied, List.length_mapIdx]
      exact hlater
    rw [takeHeaders?, takeHeader?_eq hfirst, Option.bind_some, ih hleft, Option.map_some,
      emptied_emptied, handedOut_cons, List.getElem?_eq_getElem hfirst, Option.bind_some]

/-! ## Descriptions -/

/-- The description of an item whose file was read says whether it has its header. -/
theorem BatchItem.description_iff {item : BatchItem} (hs : item.isSuccess = true) :
    ", has_header=true)".toList <:+ item.description.toList ↔ item.header.isSome = true := by
  obtain ⟨front, hf⟩ : ∃ front : String, item.description =
      front ++ ", has_header=" ++ toString item.header.isSome ++ ")" := by
    unfold description
    rw [Option.isNone_iff_eq_none.mp hs]
    exact ⟨_, rfl⟩
  rw [hf, String.toList_append, String.toList_append, String.toList_append, List.append_assoc,
    List.append_assoc]
  cases item.header.isSome with
  | true => exact iff_of_true (List.suffix_append front.toList _) rfl
  | false =>
    refine iff_of_false (fun h => ?_) Bool.false_ne_true
    have hend : "true)".toList <:+ ", has_header=true)".toList := by decide
    have hshort : "true)".toList <:+ ", has_header=false)".toList :=
      List.suffix_of_suffix_length_le (hend.trans h) (List.suffix_append front.toList _) (by decide)
    exact absurd hshort (by decide)

/-! ## The items of a batch -/

/-- Each header of a batch is handed out once. For takings at any items of the batch,
in any order and with any repetitions, the first one at an item gives the header that
processing its file alone gives, if it is processed, and every other one gives
nothing. No taking changes anything but the header of its own item: the items keep
their paths, digests, sizes and errors, and they keep their headers unless these were
asked for. The description of an item whose file was read says that it has its header
exactly if it was not asked for. -/
theorem takeHeaders?_processFiles {read : FileReader} {marker : Option String}
    {paths : List String} {batch : List BatchItem} {positions : List ℕ}
    (hb : processFiles read marker paths = .ok batch)
    (hp : ∀ position ∈ positions, position < batch.length) :
    ∃ headers left, takeHeaders? batch positions = some (headers, left) ∧
      headers.length = positions.length ∧
      (∀ (i position : ℕ) (path : String), positions[i]? = some position →
        paths[position]? = some path → headers[i]? = some (if position ∈ positions.take i
          then none else (processFile read marker path).toOption)) ∧
      left.length = batch.length ∧
      ∀ (q : ℕ) (item : BatchItem), batch[q]? = some item →
        ∃ item', left[q]? = some item' ∧ item'.path = item.path ∧ item'.digest = item.digest ∧
          item'.size = item.size ∧ item'.error = item.error ∧ item'.isSuccess = item.isSuccess ∧
          item'.header = (if q ∈ positions then none else item.header) ∧
          (item.isSuccess = true →
            (", has_header=true)".toList <:+ item'.description.toList ↔ q ∉ positions)) := by
  obtain ⟨grammar, hg⟩ : ∃ grammar, Grammar.choose marker = .ok grammar := by
    cases hg : Grammar.choose marker with
    | ok grammar => exact ⟨grammar, rfl⟩
    | error error => rw [processFiles, hg] at hb; cases hb
  have hbatch := processFiles_of_choose hg read paths
  rw [hb, Except.ok.injEq] at hbatch
  have hitem (position : ℕ) :
      batch[position]? = paths[position]?.map (processItem read grammar) := by
    rw [hbatch, List.getElem?_map]
  refine ⟨_, _, takeHeaders?_eq hp, List.length_mapIdx, fun i position path hi hpath => ?_,
    List.length_mapIdx, fun q item hq => ?_⟩
  · have hheader : (processItem read grammar path).header =
        (processFile read marker path).toOption := by
      unfold processItem processFile
      rw [hg]
      cases read path <;> rfl
    rw [handedOut, List.getElem?_mapIdx, hi, Option.map_some, hitem, hpath, Option.map_some,
      Option.bind_some, hheader]
  · have hread : item.isSuccess = true → item.header.isSome = true := by
      rw [hitem] at hq
      obtain ⟨path, -, rfl⟩ := Option.map_eq_some_iff.mp hq
      unfold processItem
      cases read path with
      | ok content => exact fun _ => rfl
      | error error => exact fun h => h
    rw [getElem?_emptied, hq, Option.map_some]
    by_cases hm : q ∈ positions
    · rw [if_pos hm, if_pos hm]
      refine ⟨item.take.2, rfl, rfl, rfl, rfl, rfl, rfl, rfl, fun hs => ?_⟩
      have hs : item.take.2.isSuccess = true := hs
      exact (BatchItem.description_iff hs).trans
        (iff_of_false Bool.false_ne_true (not_not.mpr hm))
    · rw [if_neg hm, if_neg hm]
      exact ⟨item, rfl, rfl, rfl, rfl, rfl, rfl, rfl, fun hs =>
        (BatchItem.description_iff hs).trans (iff_of_true (hread hs) hm)⟩

/-- Two items of one path and a file that is missing, asked in another order and one
of them twice. -/
theorem takeHeaders?_processFiles_of_repeated :
    let read : FileReader := fun path =>
      if path = "a.h" then .ok "enum E \x7b A \x7d;" else .error ⟨path, .notFound⟩
    let header := Grammar.standard.extract "enum E \x7b A \x7d;"
    let paths := ["a.h", "b.h", "a.h"]
    let batch := paths.map (processItem read .standard)
    let positions := [2, 1, 2, 0]
    processFiles read none paths = .ok batch ∧
      (∀ position ∈ positions, position < batch.length) ∧
      ∃ headers left, takeHeaders? batch positions = some (headers, left) ∧
        (headers[0]? = some (some header) ∧ headers[1]? = some none ∧
          headers[2]? = some none ∧ headers[3]? = some (some header)) ∧
        ∃ item, left[2]? = some item ∧ item.path = "a.h" ∧ item.isSuccess = true ∧
          item.header = none := by
  intro read header paths batch positions
  have hb : processFiles read none paths = .ok batch := rfl
  have hp : ∀ position ∈ positions, position < batch.length := by decide
  obtain ⟨headers, left, htake, -, hgiven, -, hitems⟩ := takeHeaders?_processFiles hb hp
  obtain ⟨item, hitem, hpath, -, -, -, hsuccess, hheader, -⟩ :=
    hitems 2 (processItem read .standard "a.h") rfl
  exact ⟨hb, hp, headers, left, htake, ⟨hgiven 0 2 "a.h" rfl rfl, hgiven 1 1 "b.h" rfl rfl,
    hgiven 2 2 "a.h" rfl rfl, hgiven 3 0 "a.h" rfl rfl⟩, item, hitem, hpath, hsuccess, hheader⟩

end HeaderExports
