import HeaderExports.Proofs.Json.Presentations
import HeaderExports.Proofs.Json.Skipping

/-!
# Loops of the reader

Items, the values of a record, and members are read in loops. What a loop does on
the text of a value is exact: it fails, or it stops directly behind the value, and
its results are those that the value writes, no more and no fewer. For each loop
some lemmas say what a step can do, and one says by induction on the items or
members what the whole loop returns.
-/

namespace HeaderExports.Json

/-! ## Results of reading -/

/-- What is read off the front of a text is what is accepted, and tokens are left
behind it. Where nothing is accepted, there is a fault. -/
def Exact {α : Type} (result : Except Fault (α × List Char)) (tokens : List Token)
    (text : List Char) (accepts : α → Prop) : Prop :=
  ∃ rest, Leaves tokens text rest ∧
    ∀ value after, result = .ok (value, after) ↔ accepts value ∧ after = rest

/-- Behind the first tokens of a text the others are left. -/
theorem Laid.exists_leaves {front tokens : List Token} {text : List Char} (hf : front ≠ [])
    (hl : Laid (front ++ tokens) text) : ∃ rest, Leaves tokens text rest := by
  induction front generalizing text with
  | nil => exact absurd rfl hf
  | cons token front ih =>
    obtain ⟨behind, -, hbehind⟩ := Laid.skipSpace_cons hl
    cases front with
    | nil => exact ⟨behind, hbehind⟩
    | cons next front =>
      obtain ⟨rest, hrest⟩ := ih (List.cons_ne_nil next front) hbehind.laid
      exact ⟨rest, hrest.trans hbehind⟩

/-- A fault is exact where nothing is accepted. -/
theorem Exact.of_error {α : Type} {result : Except Fault (α × List Char)}
    {front tokens : List Token} {text : List Char} {accepts : α → Prop} (hf : front ≠ [])
    (hl : Laid (front ++ tokens) text) (hr : ∃ fault, result = .error fault)
    (hn : ∀ value, ¬ accepts value) : Exact result tokens text accepts := by
  obtain ⟨rest, hrest⟩ := hl.exists_leaves hf
  obtain ⟨fault, rfl⟩ := hr
  exact ⟨rest, hrest, fun value after => ⟨nofun, fun h => absurd h.1 (hn value)⟩⟩

/-- What is accepted may be said in another way. -/
theorem Exact.congr {α : Type} {result : Except Fault (α × List Char)} {tokens : List Token}
    {text : List Char} {accepts others : α → Prop} (he : Exact result tokens text accepts)
    (ha : ∀ value, accepts value ↔ others value) : Exact result tokens text others := by
  obtain ⟨rest, hrest, hread⟩ := he
  exact ⟨rest, hrest, fun value after => (hread value after).trans (and_congr_left' (ha value))⟩

/-- What is made of something read exactly is read exactly. -/
theorem Exact.image {α β : Type} {result : Except Fault (α × List Char)}
    {image : Except Fault (β × List Char)} {make : α → β} {tokens others : List Token}
    {text inside : List Char} {accepts : α → Prop} (he : Exact result tokens inside accepts)
    (hi : Leaves others text inside) (hm : ∀ value after, image = .ok (value, after) ↔
      ∃ part, result = .ok (part, after) ∧ value = make part) :
    Exact image tokens text fun value => ∃ part, accepts part ∧ value = make part := by
  obtain ⟨rest, hrest, hread⟩ := he
  refine ⟨rest, hrest.trans hi, fun value after => (hm value after).trans ?_⟩
  constructor
  · rintro ⟨part, hpart, hv⟩
    obtain ⟨ha, hafter⟩ := (hread part after).mp hpart
    exact ⟨⟨part, ha, hv⟩, hafter⟩
  · rintro ⟨⟨part, ha, hv⟩, hafter⟩
    exact ⟨part, (hread part after).mpr ⟨ha, hafter⟩, hv⟩

/-- A value of the wrong kind is a fault. -/
theorem misfit_eq_error {α : Type} (expected : String) (text : List Char) :
    ∃ fault, (misfit expected text : Except Fault (α × List Char)) = .error fault := by
  rw [misfit.eq_def]
  dsimp only
  split
  all_goals first
    | exact ⟨_, rfl⟩
    | split <;> exact ⟨_, rfl⟩
    | split
      · split <;> exact ⟨_, rfl⟩
      · exact ⟨_, rfl⟩

/-! ## Texts and keys -/

/-- What is read of a text in quotes. -/
theorem readQuoted_exact (pieces : List Piece) (rest : List Char) :
    (∃ content, Spells content pieces ∧
      readQuoted true (unquoted pieces ++ '"' :: rest) = .ok (content, rest)) ∨
    (∀ content, ¬ Spells content pieces) ∧
      ∃ fault, readQuoted true (unquoted pieces ++ '"' :: rest) = .error fault := by
  rcases hread : readQuoted true (unquoted pieces ++ '"' :: rest) with fault | ⟨content, after⟩
  · refine .inr ⟨fun content hs => ?_, fault, rfl⟩
    have hok := readQuoted_eq_ok_iff.mpr ⟨hs, Eq.refl rest⟩
    rw [hread] at hok
    cases hok
  · obtain ⟨hs, rfl⟩ := readQuoted_eq_ok_iff.mp hread
    exact .inl ⟨content, hs, rfl⟩

/-- A text in quotes is read exactly to what its pieces spell. -/
theorem readText_exact {pieces : List Piece} {tokens : List Token} {text : List Char}
    (hl : Laid (.quoted pieces :: tokens) text) :
    Exact (readText text) tokens text fun document =>
      ∃ content : String, document = .text content ∧ Spells content.toList pieces := by
  obtain ⟨rest, he, hrest⟩ := hl.skipSpace_cons
  refine ⟨rest, hrest, fun document after => ?_⟩
  rw [Token.text, List.cons_append, List.append_assoc, List.singleton_append] at he
  simp only [readText, he]
  rcases readQuoted_exact pieces rest with ⟨content, hs, hread⟩ | ⟨hnone, fault, hread⟩
  · simp only [hread, Except.ok.injEq, Prod.mk.injEq]
    constructor
    · rintro ⟨rfl, rfl⟩
      exact ⟨⟨_, rfl, by rwa [String.toList_ofList]⟩, rfl⟩
    · rintro ⟨⟨other, rfl, hother⟩, rfl⟩
      rw [hs.unique hother, String.ofList_toList]
      exact ⟨rfl, rfl⟩
  · simp only [hread, reduceCtorEq, false_iff]
    rintro ⟨⟨content, -, hs⟩, -⟩
    exact hnone _ hs

/-- The key of a member is read as the text in quotes behind the comma, or behind
the brace. -/
theorem nextKey_quoted {first : Bool} {pieces : List Piece} {tokens : List Token}
    {text : List Char} (hl : Laid (separator first ++ .quoted pieces :: tokens) text) :
    ∃ rest, Leaves tokens text rest ∧ nextKey first text =
      (readQuoted true (unquoted pieces ++ '"' :: rest)).map fun (content, rest) =>
        (some (String.ofList content), rest) := by
  have quoted {text : List Char} (hl : Laid (.quoted pieces :: tokens) text) :
      ∃ rest, Leaves tokens text rest ∧
        skipSpace text = '"' :: (unquoted pieces ++ '"' :: rest) := by
    obtain ⟨rest, he, hrest⟩ := hl.skipSpace_cons
    rw [Token.text, List.cons_append, List.append_assoc, List.singleton_append] at he
    exact ⟨rest, hrest, he⟩
  cases first with
  | true =>
    obtain ⟨rest, hrest, he⟩ := quoted hl
    refine ⟨rest, hrest, ?_⟩
    rw [nextKey, he]
    split
    · contradiction
    · next h => exact absurd (List.cons.inj h).1 (by decide)
    · next h =>
      cases h
      simp only [if_true]
      cases readQuoted true (unquoted pieces ++ '"' :: rest) <;> rfl
  | false =>
    obtain ⟨behind, hcomma, hbehind⟩ := Laid.skipSpace_cons hl
    obtain ⟨rest, hrest, he⟩ := quoted hbehind.laid
    rw [Token.text, List.singleton_append] at hcomma
    refine ⟨rest, hrest.trans hbehind, ?_⟩
    rw [nextKey, hcomma]
    split
    · contradiction
    · next h => exact absurd (List.cons.inj h).1 (by decide)
    · next h =>
      cases h
      simp only [Bool.false_eq_true, if_false, if_true, he]
      cases readQuoted true (unquoted pieces ++ '"' :: rest) <;> rfl

/-- The key of a member is read exactly to what its pieces spell. -/
theorem nextKey_exact {first : Bool} {pieces : List Piece} {tokens : List Token}
    {text : List Char} (hl : Laid (separator first ++ .quoted pieces :: tokens) text) :
    Exact (nextKey first text) tokens text fun found =>
      ∃ key : String, found = some key ∧ Spells key.toList pieces := by
  obtain ⟨rest, hrest, he⟩ := nextKey_quoted hl
  refine ⟨rest, hrest, fun found after => ?_⟩
  rcases readQuoted_exact pieces rest with ⟨content, hs, hread⟩ | ⟨hnone, fault, hread⟩
  · simp only [he, hread, Except.map, Except.ok.injEq, Prod.mk.injEq]
    constructor
    · rintro ⟨rfl, rfl⟩
      exact ⟨⟨_, rfl, by rwa [String.toList_ofList]⟩, rfl⟩
    · rintro ⟨⟨key, rfl, hkey⟩, rfl⟩
      rw [hs.unique hkey, String.ofList_toList]
      exact ⟨rfl, rfl⟩
  · simp only [he, hread, Except.map, reduceCtorEq, false_iff]
    rintro ⟨⟨key, -, hs⟩, -⟩
    exact hnone _ hs

/-- An object ends at its brace. -/
theorem nextKey_close (first : Bool) {tokens : List Token} {text : List Char}
    (hl : Laid (.closeObject :: tokens) text) :
    ∃ rest, nextKey first text = .ok (none, rest) ∧ Leaves tokens text rest := by
  obtain ⟨rest, he, hrest⟩ := hl.skipSpace_cons
  rw [Token.text, List.singleton_append] at he
  refine ⟨rest, ?_, hrest⟩
  simp only [nextKey, he]

/-- The colon behind a key is passed over. -/
theorem readColon_token {tokens : List Token} {text : List Char}
    (hl : Laid (.colon :: tokens) text) :
    ∃ rest, readColon text = .ok rest ∧ Leaves tokens text rest := by
  obtain ⟨rest, he, hrest⟩ := hl.skipSpace_cons
  rw [Token.text, List.singleton_append] at he
  refine ⟨rest, ?_, hrest⟩
  simp only [readColon, he]

/-! ## Readers of shapes -/

/-- A document has a shape and is written by a value. -/
structure Shape.Accepts (shape : Shape) (value : Value) (document : Document) : Prop where
  /-- The document has the shape. -/
  fits : shape.Fits document
  /-- The value writes the document. -/
  writes : document.Writes value

/-- On every text of a value the reader of a shape returns exactly the documents
of the shape that the value writes. -/
def Shape.Reads (shape : Shape) : Prop :=
  ∀ {value : Value} {tokens : List Token} {text : List Char}, Laid (value.tokens ++ tokens) text →
    Exact (shape.read text) tokens text (shape.Accepts value)

/-! ## Items -/

/-- A list ends at its bracket. -/
theorem nextItem_close (first : Bool) {tokens : List Token} {text : List Char}
    (hl : Laid (.closeList :: tokens) text) :
    ∃ rest, nextItem first text = .ok (false, rest) ∧ Leaves tokens text rest := by
  obtain ⟨rest, he, hrest⟩ := hl.skipSpace_cons
  rw [Token.text, List.singleton_append] at he
  refine ⟨rest, ?_, hrest⟩
  simp only [nextItem, he]

/-- An item is found behind the comma, or behind the bracket. -/
theorem nextItem_value {first : Bool} {value : Value} {tokens : List Token} {text : List Char}
    (hl : Laid (separator first ++ (value.tokens ++ tokens)) text) :
    ∃ rest, nextItem first text = .ok (true, rest) ∧ Laid (value.tokens ++ tokens) rest ∧
      rest.length ≤ text.length := by
  cases first with
  | true =>
    obtain ⟨c, more, he, hc⟩ := Laid.value_begins hl
    refine ⟨skipSpace text, ?_, Laid.of_skipSpace hl, length_skipSpace_le text⟩
    rw [nextItem, he]
    split
    · contradiction
    · next h => exact absurd (List.cons.inj h).1 hc
    · next h =>
      cases h
      rfl
  | false =>
    obtain ⟨behind, hcomma, hbehind⟩ := Laid.skipSpace_cons hl
    obtain ⟨c, more, he, hc⟩ := hbehind.laid.value_begins
    rw [Token.text, List.singleton_append] at hcomma
    refine ⟨skipSpace behind, ?_, hbehind.laid.of_skipSpace,
      (length_skipSpace_le behind).trans hbehind.shorter.le⟩
    rw [nextItem, hcomma]
    split
    · contradiction
    · next h => exact absurd (List.cons.inj h).1 (by decide)
    · next h =>
      cases h
      rw [if_neg Bool.false_ne_true, if_pos rfl, he]
      split
      · contradiction
      · next h => exact absurd (List.cons.inj h).1 hc
      · rfl

/-- An item begins with a comma or as a value, so that no list ends with it. -/
theorem Laid.item_begins {first : Bool} {value : Value} {tokens : List Token} {text : List Char}
    (hl : Laid (separator first ++ (value.tokens ++ tokens)) text) :
    ∃ c more, skipSpace text = c :: more ∧ c ≠ ']' := by
  cases first with
  | true => exact Laid.value_begins hl
  | false =>
    obtain ⟨behind, hcomma, -⟩ := Laid.skipSpace_cons hl
    exact ⟨',', behind, hcomma, by decide⟩

/-- Items are read exactly to the documents that they write. -/
theorem readItems_exact {item : Shape} (hi : item.Reads) {items : List Value} {limit : ℕ}
    {first : Bool} {tokens : List Token} {text : List Char}
    (hl : Laid (Value.itemsTokens first items ++ .closeList :: tokens) text)
    (hlimit : text.length < limit) :
    Exact (readItems item.read limit first text) tokens text fun documents =>
      List.Forall₂ (fun document value => item.Accepts value document) documents items := by
  induction items generalizing limit first text with
  | nil =>
    obtain ⟨limit, rfl⟩ := Nat.exists_eq_succ_of_ne_zero (Nat.ne_of_gt (Nat.zero_lt_of_lt hlimit))
    obtain ⟨rest, hnext, hrest⟩ := nextItem_close first hl
    refine ⟨rest, hrest, fun documents after => ?_⟩
    simp only [readItems_eq_ok_iff, hnext, List.forall₂_nil_right_iff, Except.ok.injEq,
      Prod.mk.injEq, true_and, reduceCtorEq, false_and, exists_false, or_false]
    exact ⟨fun ⟨ha, hd⟩ => ⟨hd, ha.symm⟩, fun ⟨hd, ha⟩ => ⟨ha.symm, hd⟩⟩
  | cons value items ih =>
    obtain ⟨limit, rfl⟩ := Nat.exists_eq_succ_of_ne_zero (Nat.ne_of_gt (Nat.zero_lt_of_lt hlimit))
    rw [Value.itemsTokens, List.append_assoc, List.append_assoc] at hl
    obtain ⟨inside, hnext, hinside, hlength⟩ := nextItem_value hl
    obtain ⟨behind, hbehind, hvalue⟩ := hi hinside
    have hshort := hbehind.shorter.trans_le hlength
    obtain ⟨rest, hrest, hmore⟩ :=
      ih hbehind.laid (Nat.lt_of_lt_of_le hshort (Nat.le_of_lt_succ hlimit))
    refine ⟨rest, ⟨hrest.laid, hrest.shorter.trans hshort⟩, fun documents after => ?_⟩
    dsimp only
    rw [readItems_eq_ok_iff, List.forall₂_cons_right_iff]
    constructor
    · rintro (⟨hclose, -⟩ | ⟨start, document, stop, more, hstart, hread, hreads, rfl⟩)
      · rw [hnext] at hclose
        cases hclose
      · rw [hnext] at hstart
        cases hstart
        obtain ⟨ha, rfl⟩ := (hvalue document stop).mp hread
        obtain ⟨hall, rfl⟩ := (hmore more after).mp hreads
        exact ⟨⟨document, more, ha, hall, rfl⟩, rfl⟩
    · rintro ⟨⟨document, more, ha, hall, rfl⟩, rfl⟩
      exact .inr ⟨inside, document, behind, more, hnext, (hvalue document behind).mpr ⟨ha, rfl⟩,
        (hmore more _).mpr ⟨hall, rfl⟩, rfl⟩

/-! ## Values in the order of the members -/

/-- Behind the values of a record its list ends. -/
theorem readPositional_nil_close (title : String) (count position : ℕ) {tokens : List Token}
    {text : List Char} (hl : Laid (.closeList :: tokens) text) :
    ∃ rest, readPositional title count position [] text = .ok ([], rest) ∧
      Leaves tokens text rest := by
  obtain ⟨rest, he, hrest⟩ := hl.skipSpace_cons
  rw [Token.text, List.singleton_append] at he
  refine ⟨rest, ?_, hrest⟩
  simp only [readPositional, he]

/-- A value behind those of a record is a fault. -/
theorem readPositional_nil_error (title : String) (count position : ℕ) {text more : List Char}
    {c : Char} (he : skipSpace text = c :: more) (hc : c ≠ ']') :
    ∃ fault, readPositional title count position [] text = .error fault := by
  rw [readPositional, he]
  split
  · exact ⟨_, rfl⟩
  · next h => exact absurd (List.cons.inj h).1 hc
  · split <;> exact ⟨_, rfl⟩
  · exact ⟨_, rfl⟩

/-- Documents under the keys that are asked for, in their order, each of which has
its shape and is written by its value. -/
inductive Positioned : List (String × Shape) → List (String × Document) → List Value → Prop where
  /-- Nothing is asked for. -/
  | nil : Positioned [] [] []
  /-- A document under its key. -/
  | cons {key : String} {shape : Shape} {document : Document} {value : Value}
      {asked : List (String × Shape)} {entries : List (String × Document)} {values : List Value}
      (accepted : shape.Accepts value document) (more : Positioned asked entries values) :
      Positioned ((key, shape) :: asked) ((key, document) :: entries) (value :: values)

section
variable (title : String) (count position : ℕ) {key : String} {shape : Shape} {value : Value}
  {asked : List (String × Shape)} {values : List Value} {tokens : List Token} {text : List Char}

/-- Where nothing is asked for any more, the list has to end. -/
theorem readPositional_nil_exact
    (hl : Laid (Value.itemsTokens (position == 0) values ++ .closeList :: tokens) text) :
    Exact (readPositional title count position [] text) tokens text fun entries =>
      Positioned [] entries values := by
  cases values with
  | nil =>
    obtain ⟨rest, hread, hrest⟩ := readPositional_nil_close title count position hl
    refine ⟨rest, hrest, fun entries after => ?_⟩
    rw [hread, Except.ok.injEq, Prod.mk.injEq]
    constructor
    · rintro ⟨rfl, rfl⟩
      exact ⟨.nil, rfl⟩
    · rintro ⟨hp, rfl⟩
      cases hp
      exact ⟨rfl, rfl⟩
  | cons value values =>
    have hbegins := hl
    rw [Value.itemsTokens, List.append_assoc, List.append_assoc] at hbegins
    obtain ⟨c, more, he, hc⟩ := hbegins.item_begins
    rw [List.append_cons] at hl
    exact .of_error (List.append_ne_nil_of_right_ne_nil _ (List.cons_ne_nil _ _)) hl
      (readPositional_nil_error title count position he hc) fun entries hp => by cases hp

/-- A list that ends where a value is asked for is a fault. -/
theorem readPositional_short_exact (hl : Laid (.closeList :: tokens) text) :
    Exact (readPositional title count position (Shape.memberReaders ((key, shape) :: asked)) text)
      tokens text fun entries => Positioned ((key, shape) :: asked) entries [] := by
  obtain ⟨rest, hclose, hrest⟩ := nextItem_close (position == 0) hl
  refine ⟨rest, hrest, fun entries after => ?_⟩
  rw [Shape.memberReaders, Shape.memberReader, readPositional_cons_eq_ok_iff]
  constructor
  · rintro ⟨inside, document, behind, more, hstart, -⟩
    rw [hclose] at hstart
    cases hstart
  · rintro ⟨hp, -⟩
    cases hp

/-- The value of a member is read in front of those behind it. -/
theorem readPositional_cons_exact {inside behind : List Char}
    (hlength : inside.length ≤ text.length) (hshort : behind.length < inside.length)
    (hnext : nextItem (position == 0) text = .ok (true, inside))
    (hvalue : ∀ document place, shape.read inside = .ok (document, place) ↔
      shape.Accepts value document ∧ place = behind)
    (hmore : Exact (readPositional title count (position + 1) (Shape.memberReaders asked) behind)
      tokens behind fun entries => Positioned asked entries values) :
    Exact (readPositional title count position (Shape.memberReaders ((key, shape) :: asked)) text)
      tokens text fun entries => Positioned ((key, shape) :: asked) entries (value :: values) := by
  obtain ⟨rest, hrest, hmore⟩ := hmore
  have hshorter := hrest.shorter.trans (hshort.trans_le hlength)
  refine ⟨rest, ⟨hrest.laid, hshorter⟩, fun entries after => ?_⟩
  rw [Shape.memberReaders, Shape.memberReader, readPositional_cons_eq_ok_iff]
  constructor
  · rintro ⟨start, document, stop, more, hstart, hread, hreads, rfl⟩
    rw [hnext] at hstart
    cases hstart
    obtain ⟨ha, rfl⟩ := (hvalue document stop).mp hread
    obtain ⟨hall, rfl⟩ := (hmore more after).mp hreads
    exact ⟨.cons ha hall, rfl⟩
  · rintro ⟨hp, rfl⟩
    cases hp with
    | cons ha hall =>
      exact ⟨inside, _, behind, _, hnext, (hvalue _ behind).mpr ⟨ha, rfl⟩,
        (hmore _ _).mpr ⟨hall, rfl⟩, rfl⟩

/-- Values are read exactly to the entries that they write. -/
theorem readPositional_exact (hr : ∀ member ∈ asked, member.2.Reads)
    (hl : Laid (Value.itemsTokens (position == 0) values ++ .closeList :: tokens) text) :
    Exact (readPositional title count position (Shape.memberReaders asked) text) tokens text
      fun entries => Positioned asked entries values := by
  induction asked generalizing values position text with
  | nil => exact readPositional_nil_exact title count position hl
  | cons member asked ih =>
    obtain ⟨key, shape⟩ := member
    cases values with
    | nil => exact readPositional_short_exact title count position hl
    | cons value values =>
      rw [Value.itemsTokens, List.append_assoc, List.append_assoc] at hl
      obtain ⟨inside, hnext, hinside, hlength⟩ := nextItem_value hl
      obtain ⟨behind, hbehind, hvalue⟩ := hr (key, shape) List.mem_cons_self hinside
      exact readPositional_cons_exact title count position hlength hbehind.shorter hnext hvalue
        (ih (position + 1) (fun member hm => hr member (List.mem_cons_of_mem _ hm)) hbehind.laid)

end

/-! ## Members -/

section
variable {members : List MemberReader} {limit : ℕ} {first : Bool} {key : String}
  {text behind inside : List Char}

/-- A member that is asked for is read, unless its key was found before. -/
theorem readMembers_asked {member : MemberReader} {found result : List (String × Document)}
    {after : List Char} (hk : nextKey first text = .ok (some key, behind))
    (hc : readColon behind = .ok inside) (hm : members.find? (·.1 = key) = some member) :
    readMembers members (limit + 1) first found text = .ok (result, after) ↔
      key ∉ found.map (·.1) ∧ ∃ document rest, member.2 inside = .ok (document, rest) ∧
        readMembers members limit false ((key, document) :: found) rest = .ok (result, after) := by
  have hfound : found.any (·.1 = key) = true ↔ key ∈ found.map (·.1) := by
    simp only [List.any_eq_true, decide_eq_true_eq, List.mem_map]
  simp only [readMembers, hk, hm, hc, hfound]
  by_cases hkey : key ∈ found.map (·.1)
  · simp only [hkey, if_true, reduceCtorEq, not_true_eq_false, false_and]
  · rcases hvalue : member.2 inside with fault | ⟨document, rest⟩
    · simp only [hkey, if_false, reduceCtorEq, false_and, exists_false, and_false]
    · simp only [hkey, if_false, not_false_eq_true, true_and, Except.ok.injEq, Prod.mk.injEq]
      constructor
      · exact fun hread => ⟨document, rest, ⟨rfl, rfl⟩, hread⟩
      · rintro ⟨_, _, ⟨rfl, rfl⟩, hread⟩
        exact hread

/-- A member that is not asked for is skipped. -/
theorem readMembers_other {rest : List Char} (found : List (String × Document))
    (hk : nextKey first text = .ok (some key, behind)) (hc : readColon behind = .ok inside)
    (hm : members.find? (·.1 = key) = none) (hs : skipValue inside = .ok rest) :
    readMembers members (limit + 1) first found text =
      readMembers members limit false found rest := by
  simp only [readMembers, hk, hm, hc, hs]

/-- The fault of a key is the fault of the object. -/
theorem readMembers_error {fault : Fault} (found : List (String × Document))
    (hk : nextKey first text = .error fault) :
    readMembers members (limit + 1) first found text = .error fault := by
  simp only [readMembers, hk]

end

/-- Entries that are asked for, each with the shape under its key, which the
members of an object write, and no other member is asked for. -/
structure Found (asked : List (String × Shape)) (members : List (List Piece × Value))
    (entries : List (String × Document)) : Prop where
  /-- The entries have their shapes. -/
  fits : ∀ entry ∈ entries, ∃ shape, (entry.1, shape) ∈ asked ∧ shape.Fits entry.2
  /-- The members write the entries, and the others have keys not asked for. -/
  written : ∃ others, Members Document.Writes entries others members ∧
    ∀ key ∈ others, key ∉ asked.map (·.1)

section
variable {asked : List (String × Shape)} {members : List (List Piece × Value)}
  {entries : List (String × Document)} {pieces : List Piece} {value : Value} {key : String}

/-- The key of an entry is asked for. -/
theorem Found.key_mem (hf : Found asked members entries) :
    ∀ entry ∈ entries, entry.1 ∈ asked.map (·.1) := by
  intro entry he
  obtain ⟨shape, hshape, -⟩ := hf.fits entry he
  exact List.mem_map.mpr ⟨_, hshape, rfl⟩

/-- No entries are found where there are no members. -/
theorem found_nil_iff : Found asked [] entries ↔ entries = [] := by
  constructor
  · intro hf
    obtain ⟨others, hm, -⟩ := hf.written
    cases hm
    rfl
  · rintro rfl
    exact ⟨List.forall_mem_nil _, [], .nil, List.forall_mem_nil _⟩

/-- The key of every member is spelled. -/
theorem Found.spells (hf : Found asked ((pieces, value) :: members) entries) :
    ∃ key : String, Spells key.toList pieces := by
  obtain ⟨others, hm, -⟩ := hf.written
  cases hm with
  | entry spells written more => exact ⟨_, spells⟩
  | other spells more => exact ⟨_, spells⟩

/-- A member under a key that is asked for is the first entry. -/
theorem found_asked_iff (hn : (asked.map (·.1)).Nodup) {shape : Shape}
    (hs : Spells key.toList pieces) (ha : (key, shape) ∈ asked) :
    Found asked ((pieces, value) :: members) entries ↔
      ∃ document more, entries = (key, document) :: more ∧ shape.Accepts value document ∧
        Found asked members more := by
  constructor
  · intro hf
    obtain ⟨others, hm, ho⟩ := hf.written
    cases hm with
    | entry spells written more =>
      obtain rfl := String.toList_inj.mp (hs.unique spells)
      obtain ⟨⟨other, hother, hfits⟩, hfit⟩ := List.forall_mem_cons.mp hf.fits
      obtain rfl := (Prod.mk.inj (List.inj_on_of_nodup_map hn hother ha rfl)).2
      exact ⟨_, _, rfl, ⟨hfits, written⟩, hfit, _, more, ho⟩
    | other spells more =>
      obtain rfl := String.toList_inj.mp (hs.unique spells)
      exact absurd (List.mem_map.mpr ⟨_, ha, rfl⟩) (ho _ List.mem_cons_self)
  · rintro ⟨document, more, rfl, haccepts, hf⟩
    obtain ⟨others, hm, ho⟩ := hf.written
    exact ⟨List.forall_mem_cons.mpr ⟨⟨shape, ha, haccepts.fits⟩, hf.fits⟩, others,
      .entry hs haccepts.writes hm, ho⟩

/-- A member under a key that is not asked for does not count. -/
theorem found_other_iff (hs : Spells key.toList pieces) (hk : key ∉ asked.map (·.1)) :
    Found asked ((pieces, value) :: members) entries ↔ Found asked members entries := by
  constructor
  · intro hf
    obtain ⟨others, hm, ho⟩ := hf.written
    cases hm with
    | entry spells written more =>
      obtain rfl := String.toList_inj.mp (hs.unique spells)
      obtain ⟨shape, hshape, -⟩ := hf.fits _ List.mem_cons_self
      exact absurd (List.mem_map.mpr ⟨_, hshape, rfl⟩) hk
    | other spells more =>
      exact ⟨hf.fits, _, more, fun key hm => ho key (List.mem_cons_of_mem _ hm)⟩
  · intro hf
    obtain ⟨others, hm, ho⟩ := hf.written
    exact ⟨hf.fits, key :: others, .other hs hm, List.forall_mem_cons.mpr ⟨hk, ho⟩⟩

end

/-- The reader of a member is found under its key where no key occurs twice. -/
theorem find?_memberReaders {asked : List (String × Shape)} (hn : (asked.map (·.1)).Nodup)
    {key : String} {shape : Shape} (ha : (key, shape) ∈ asked) :
    (Shape.memberReaders asked).find? (·.1 = key) = some (key, shape.read) := by
  rw [Shape.memberReaders_eq]
  have hmem : (key, shape.read) ∈ asked.map fun member => (member.1, member.2.read) :=
    List.mem_map.mpr ⟨(key, shape), ha, rfl⟩
  refine find?_key_of_mem ?_ hmem
  rw [List.map_map]
  exact hn

/-- No reader is found under a key that is not asked for. -/
theorem find?_memberReaders_eq_none {asked : List (String × Shape)} {key : String}
    (hk : key ∉ asked.map (·.1)) : (Shape.memberReaders asked).find? (·.1 = key) = none := by
  rw [Shape.memberReaders_eq, List.find?_eq_none]
  rintro reader hm heq
  obtain ⟨member, hmember, rfl⟩ := List.mem_map.mp hm
  exact hk (List.mem_map.mpr ⟨member, hmember, of_decide_eq_true heq⟩)

/-- Reading members adds the entries that they write to those found before, as long
as no key is found twice, and stops at a place. -/
def ReadsMembers (asked : List (String × Shape)) (members : List (List Piece × Value)) (limit : ℕ)
    (first : Bool) (text rest : List Char) : Prop :=
  ∀ found : List (String × Document), (found.map (·.1)).Nodup → ∀ result after,
    readMembers (Shape.memberReaders asked) limit first found text = .ok (result, after) ↔
      (∃ entries, Found asked members entries ∧ ((entries.reverse ++ found).map (·.1)).Nodup ∧
        result = entries.reverse ++ found) ∧ after = rest

section
variable {asked : List (String × Shape)} {members : List (List Piece × Value)}
  {pieces : List Piece} {value : Value} {key : String} {limit : ℕ} {first : Bool}
  {text behind inside stop rest : List Char}

/-- Behind the last member nothing is added. -/
theorem readsMembers_nil (hk : nextKey first text = .ok (none, rest)) :
    ReadsMembers asked [] (limit + 1) first text rest := by
  intro found hfound result after
  rw [readMembers_close found hk, Except.ok.injEq, Prod.mk.injEq]
  constructor
  · rintro ⟨rfl, rfl⟩
    exact ⟨⟨[], found_nil_iff.mpr rfl, hfound, rfl⟩, rfl⟩
  · rintro ⟨⟨entries, hf, -, rfl⟩, rfl⟩
    rw [found_nil_iff.mp hf]
    exact ⟨rfl, rfl⟩

/-- A member that is asked for is added in front of those behind it. -/
theorem readsMembers_asked (hmore : ReadsMembers asked members limit false stop rest)
    (hn : (asked.map (·.1)).Nodup) {shape : Shape} (ha : (key, shape) ∈ asked)
    (hs : Spells key.toList pieces) (hk : nextKey first text = .ok (some key, behind))
    (hc : readColon behind = .ok inside)
    (hvalue : ∀ document place, shape.read inside = .ok (document, place) ↔
      shape.Accepts value document ∧ place = stop) :
    ReadsMembers asked ((pieces, value) :: members) (limit + 1) first text rest := by
  intro found hfound result after
  have hshift (document : Document) (entries : List (String × Document)) :
      ((key, document) :: entries).reverse ++ found =
        entries.reverse ++ (key, document) :: found := by
    rw [List.reverse_cons, List.append_assoc, List.singleton_append]
  rw [readMembers_asked hk hc (find?_memberReaders hn ha)]
  constructor
  · rintro ⟨hnew, document, place, hread, hreads⟩
    obtain ⟨haccepts, rfl⟩ := (hvalue document place).mp hread
    have hlonger := List.nodup_cons.mpr ⟨hnew, hfound⟩
    obtain ⟨⟨entries, hf, hnodup, rfl⟩, rfl⟩ :=
      (hmore ((key, document) :: found) hlonger result after).mp hreads
    rw [← hshift] at hnodup ⊢
    exact ⟨⟨(key, document) :: entries, (found_asked_iff hn hs ha).mpr
      ⟨document, entries, rfl, haccepts, hf⟩, hnodup, rfl⟩, rfl⟩
  · rintro ⟨⟨entries, hf, hnodup, rfl⟩, rfl⟩
    obtain ⟨document, more, rfl, haccepts, hf⟩ := (found_asked_iff hn hs ha).mp hf
    rw [hshift] at hnodup ⊢
    have hlonger : (((key, document) :: found).map (·.1)).Nodup := by
      rw [List.map_append] at hnodup
      exact hnodup.of_append_right
    exact ⟨(List.nodup_cons.mp hlonger).1, document, stop,
      (hvalue document stop).mpr ⟨haccepts, rfl⟩,
      (hmore _ hlonger _ _).mpr ⟨⟨more, hf, hnodup, rfl⟩, rfl⟩⟩

/-- A member that is not asked for adds nothing. -/
theorem readsMembers_other (hmore : ReadsMembers asked members limit false stop rest)
    (ho : key ∉ asked.map (·.1)) (hs : Spells key.toList pieces)
    (hk : nextKey first text = .ok (some key, behind)) (hc : readColon behind = .ok inside)
    (hskip : skipValue inside = .ok stop) :
    ReadsMembers asked ((pieces, value) :: members) (limit + 1) first text rest := by
  intro found hfound result after
  rw [readMembers_other found hk hc (find?_memberReaders_eq_none ho) hskip]
  simp only [found_other_iff hs ho]
  exact hmore found hfound result after

/-- Where the key of a member spells nothing, reading fails. -/
theorem readsMembers_of_not_spells (hs : ∀ key : String, ¬ Spells key.toList pieces)
    (hk : ∃ fault, nextKey first text = .error fault) :
    ReadsMembers asked ((pieces, value) :: members) (limit + 1) first text rest := by
  intro found hfound result after
  obtain ⟨fault, hk⟩ := hk
  rw [readMembers_error found hk]
  constructor
  · intro hok
    cases hok
  · rintro ⟨⟨entries, hf, -⟩, -⟩
    obtain ⟨key, spells⟩ := hf.spells
    exact absurd spells (hs key)

end

/-- Members are read exactly to the entries that they write, none of them twice. -/
theorem readMembers_exact {asked : List (String × Shape)} (hn : (asked.map (·.1)).Nodup)
    (hr : ∀ member ∈ asked, member.2.Reads) {members : List (List Piece × Value)} {limit : ℕ}
    {first : Bool} {tokens : List Token} {text : List Char}
    (hl : Laid (Value.membersTokens first members ++ .closeObject :: tokens) text)
    (hlimit : text.length < limit) :
    ∃ rest, Leaves tokens text rest ∧ ReadsMembers asked members limit first text rest := by
  induction members generalizing limit first text with
  | nil =>
    obtain ⟨limit, rfl⟩ := Nat.exists_eq_succ_of_ne_zero (Nat.ne_of_gt (Nat.zero_lt_of_lt hlimit))
    obtain ⟨rest, hclose, hrest⟩ := nextKey_close first hl
    exact ⟨rest, hrest, readsMembers_nil hclose⟩
  | cons member members ih =>
    obtain ⟨limit, rfl⟩ := Nat.exists_eq_succ_of_ne_zero (Nat.ne_of_gt (Nat.zero_lt_of_lt hlimit))
    have hwhole : ∃ rest, Leaves tokens text rest := by
      rw [List.append_cons] at hl
      exact hl.exists_leaves (List.append_ne_nil_of_right_ne_nil _ (List.cons_ne_nil _ _))
    obtain ⟨pieces, value⟩ := member
    rw [Value.membersTokens, Value.memberTokens, List.append_assoc, List.append_assoc] at hl
    obtain ⟨behind, hbehind, hkey⟩ := nextKey_exact hl
    obtain ⟨inside, hcolon, hinside⟩ := readColon_token hbehind.laid
    have hinner : Leaves _ text inside := hinside.trans hbehind
    -- What is left behind the value is shorter than the text, so that the limit lasts.
    have hrest {stop : List Char}
        (hstop : Leaves (Value.membersTokens false members ++ .closeObject :: tokens) inside stop) :
        ∃ rest, Leaves tokens text rest ∧ ReadsMembers asked members limit false stop rest := by
      have hshort : stop.length < limit :=
        Nat.lt_of_lt_of_le (hstop.trans hinner).shorter (Nat.le_of_lt_succ hlimit)
      obtain ⟨rest, hrest, hmore⟩ := ih hstop.laid hshort
      exact ⟨rest, hrest.trans (hstop.trans hinner), hmore⟩
    by_cases hs : ∃ key : String, Spells key.toList pieces
    · obtain ⟨key, hs⟩ := hs
      have hk := (hkey (some key) behind).mpr ⟨⟨key, rfl, hs⟩, rfl⟩
      by_cases ha : ∃ shape, (key, shape) ∈ asked
      · obtain ⟨shape, ha⟩ := ha
        obtain ⟨stop, hstop, hvalue⟩ := hr (key, shape) ha hinside.laid
        obtain ⟨rest, hleaves, hmore⟩ := hrest hstop
        exact ⟨rest, hleaves, readsMembers_asked hmore hn ha hs hk hcolon hvalue⟩
      · have hother : key ∉ asked.map (·.1) := by
          intro hm
          obtain ⟨⟨_, shape⟩, hmember, rfl⟩ := List.mem_map.mp hm
          exact ha ⟨shape, hmember⟩
        obtain ⟨stop, hskip, hstop⟩ := skipValue_tokens closes_members hinside.laid
        obtain ⟨rest, hleaves, hmore⟩ := hrest hstop
        exact ⟨rest, hleaves, readsMembers_other hmore hother hs hk hcolon hskip⟩
    · obtain ⟨rest, hleaves⟩ := hwhole
      refine ⟨rest, hleaves, readsMembers_of_not_spells (not_exists.mp hs) ?_⟩
      rcases hnext : nextKey first text with fault | ⟨next, place⟩
      · exact ⟨fault, rfl⟩
      · obtain ⟨⟨key, -, hk⟩, -⟩ := (hkey next place).mp hnext
        exact absurd ⟨key, hk⟩ hs

end HeaderExports.Json
