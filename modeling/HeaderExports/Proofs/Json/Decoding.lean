import HeaderExports.Proofs.Json.HeaderRoundTrip
import HeaderExports.Proofs.Json.Loops

/-!
# Decoding does not depend on how a header is written

On every text of a JSON value the reader of a shape returns exactly the documents
of the shape that the value writes. The induction goes over the shape, with the
loops of the reader in its cases. A header is therefore read from every value that
writes it, and none is read from a value in which a member is missing or repeated.
-/

namespace HeaderExports

namespace Json

/-! ## Records -/

/-- The entries found are put in the order of the keys asked for, if each of these
is among them. -/
theorem arrange_eq_ok_iff {found entries : List (String × Document)} {members : List MemberReader}
    {rest : List Char} :
    arrange found rest members = .ok entries ↔ members.map (·.1) = entries.map (·.1) ∧
      ∀ entry ∈ entries, found.find? (·.1 = entry.1) = some entry := by
  refine ⟨fun harrange => ?_, fun ⟨hk, hf⟩ => arrange_eq_ok hk hf rest⟩
  induction members generalizing entries with
  | nil =>
    rw [arrange, Except.ok.injEq] at harrange
    rw [← harrange]
    exact ⟨rfl, List.forall_mem_nil _⟩
  | cons member members ih =>
    rw [arrange] at harrange
    split at harrange
    · cases harrange
    · next entry hentry =>
      split at harrange
      · cases harrange
      · next more hmore =>
        cases harrange
        obtain ⟨hk, hf⟩ := ih hmore
        have hkey := List.find?_some hentry
        rw [decide_eq_true_eq] at hkey
        rw [List.map_cons, List.map_cons, hk, hkey]
        refine ⟨rfl, List.forall_mem_cons.mpr ⟨?_, hf⟩⟩
        rw [hkey]
        exact hentry

/-- A member and the entry in its place have the same key. -/
theorem key_eq_of_mem_zip {α β : Type} {members : List (String × α)} {entries : List (String × β)}
    (hk : members.map (·.1) = entries.map (·.1)) {pair : (String × α) × String × β}
    (hp : pair ∈ members.zip entries) : pair.1.1 = pair.2.1 := by
  induction members generalizing entries with
  | nil => cases hp
  | cons member members ih =>
    cases entries with
    | nil => cases hk
    | cons entry entries =>
      rw [List.map_cons, List.map_cons, List.cons.injEq] at hk
      rw [List.zip_cons_cons, List.mem_cons] at hp
      rcases hp with rfl | hp
      · exact hk.1
      · exact ih hk.2 hp

/-- Entries are in their places exactly if they have the keys asked for and the
shapes, and the values write them. -/
theorem positioned_iff {asked : List (String × Shape)} {entries : List (String × Document)}
    {values : List Value} :
    Positioned asked entries values ↔ asked.map (·.1) = entries.map (·.1) ∧
      (∀ pair ∈ asked.zip entries, pair.1.2.Fits pair.2.2) ∧
      List.Forall₂ Document.Writes (entries.map (·.2)) values := by
  constructor
  · intro hp
    induction hp with
    | nil => exact ⟨rfl, List.forall_mem_nil _, .nil⟩
    | cons accepted more ih =>
      obtain ⟨hk, hfits, hwrites⟩ := ih
      exact ⟨congrArg (_ :: ·) hk, Shape.Fits.cons accepted.fits hfits,
        .cons accepted.writes hwrites⟩
  · rintro ⟨hk, hfits, hwrites⟩
    induction asked generalizing entries values with
    | nil =>
      rw [List.map_nil, eq_comm, List.map_eq_nil_iff] at hk
      subst hk
      cases hwrites
      exact .nil
    | cons member asked ih =>
      cases entries with
      | nil => cases hk
      | cons entry entries =>
        obtain ⟨key, shape⟩ := member
        obtain ⟨other, document⟩ := entry
        rw [List.map_cons, List.map_cons, List.cons.injEq] at hk
        obtain ⟨rfl, hk⟩ := hk
        cases hwrites with
        | cons written more =>
          rw [List.zip_cons_cons, List.forall_mem_cons] at hfits
          exact .cons ⟨hfits.1, written⟩ (ih hk hfits.2 more)

section
variable {title : String} {asked : List (String × Shape)} {document : Document}

/-- A list is accepted as a record if its values write the entries in their
places. -/
theorem accepts_positional_iff (hn : (asked.map (·.1)).Nodup) {values : List Value} :
    (Shape.record title asked).Accepts (.list values) document ↔
      ∃ entries, Positioned asked entries values ∧ document = .record entries := by
  constructor
  · rintro ⟨hfits, hwrites⟩
    cases hfits with
    | record keys distinct fits =>
      cases hwrites with
      | positional each => exact ⟨_, positioned_iff.mpr ⟨keys, fits, each⟩, rfl⟩
  · rintro ⟨entries, hp, rfl⟩
    obtain ⟨hk, hfits, hwrites⟩ := positioned_iff.mp hp
    exact ⟨.record hk (hk ▸ hn) hfits, .positional hwrites⟩

/-- An object is accepted as a record if the entries found among its members are
those of the record. -/
theorem accepts_object_iff (hn : (asked.map (·.1)).Nodup) {members : List (List Piece × Value)} :
    (Shape.record title asked).Accepts (.object members) document ↔
      ∃ found entries, Found asked members found ∧ asked.map (·.1) = entries.map (·.1) ∧
        found.Perm entries ∧ document = .record entries := by
  constructor
  · rintro ⟨hfits, hwrites⟩
    cases hfits with
    | record keys distinct fits =>
      cases hwrites with
      | @object _ found others _ order each unknown =>
        refine ⟨found, _, ⟨fun entry he => ?_, others, each, keys ▸ unknown⟩, keys, order, rfl⟩
        obtain ⟨⟨_, shape⟩, hpair, hmember, rfl⟩ :=
          exists_mem_zip_of_keys keys (order.mem_iff.mp he)
        exact ⟨shape, hmember, fits _ hpair⟩
  · rintro ⟨found, entries, ⟨hfits, others, hm, ho⟩, hk, order, rfl⟩
    refine ⟨.record hk (hk ▸ hn) fun pair hp => ?_, .object order hm (hk ▸ ho)⟩
    have hkey := key_eq_of_mem_zip hk hp
    obtain ⟨shape, hshape, hfit⟩ := hfits pair.2 (order.mem_iff.mpr (List.of_mem_zip hp).2)
    rw [← hkey] at hshape
    have hsame := List.inj_on_of_nodup_map hn hshape (List.of_mem_zip hp).1 rfl
    rw [← hsame]
    exact hfit

end

/-- Where no key occurs twice, entries are found under their keys and cover the
keys asked for exactly if they are those found in another order. -/
theorem perm_iff_find? {found entries : List (String × Document)}
    (hf : (found.map (·.1)).Nodup) (hn : (entries.map (·.1)).Nodup)
    (hk : ∀ entry ∈ found, entry.1 ∈ entries.map (·.1)) :
    found.Perm entries ↔ ∀ entry ∈ entries, found.reverse.find? (·.1 = entry.1) = some entry := by
  have hreverse : (found.reverse.map (·.1)).Nodup := by
    rw [List.map_reverse, List.nodup_reverse]
    exact hf
  constructor
  · intro order entry he
    exact find?_key_of_mem hreverse (List.mem_reverse.mpr (order.mem_iff.mpr he))
  · intro hfind
    refine (List.perm_ext_iff_of_nodup hf.of_map hn.of_map).mpr fun entry => ⟨fun he => ?_, ?_⟩
    · obtain ⟨other, hother, hkey⟩ := List.mem_map.mp (hk entry he)
      have hmem := List.mem_reverse.mp (List.mem_of_find?_eq_some (hfind other hother))
      exact List.inj_on_of_nodup_map hf hmem he hkey ▸ hother
    · intro he
      exact List.mem_reverse.mp (List.mem_of_find?_eq_some (hfind entry he))

/-- A list is read as a record from its values. -/
theorem readRecord_list {title : String} {members : List MemberReader}
    {text inside after : List Char} {document : Document} (he : skipSpace text = '[' :: inside) :
    readRecord title members text = .ok (document, after) ↔
      ∃ entries, readPositional title members.length 0 members inside = .ok (entries, after) ∧
        document = .record entries := by
  simp only [readRecord, he]
  rcases readPositional title members.length 0 members inside with fault | ⟨entries, stop⟩
  · simp only [reduceCtorEq, false_and, exists_false]
  · simp only [Except.ok.injEq, Prod.mk.injEq]
    constructor
    · rintro ⟨rfl, rfl⟩
      exact ⟨entries, ⟨rfl, rfl⟩, rfl⟩
    · rintro ⟨_, ⟨rfl, rfl⟩, rfl⟩
      exact ⟨rfl, rfl⟩

/-- An object is read as a record from its members, if all of those asked for are
found. -/
theorem readRecord_object {title : String} {members : List MemberReader}
    {text inside after : List Char} {document : Document}
    (he : skipSpace text = '\x7b' :: inside) :
    readRecord title members text = .ok (document, after) ↔
      ∃ found entries, readMembers members (inside.length + 1) true [] inside = .ok (found, after) ∧
        arrange found after members = .ok entries ∧ document = .record entries := by
  simp only [readRecord, he]
  rcases readMembers members (inside.length + 1) true [] inside with fault | ⟨found, stop⟩
  · simp only [reduceCtorEq, false_and, exists_false]
  · rcases harrange : arrange found stop members with fault | entries
    · simp only [harrange, reduceCtorEq, Except.ok.injEq, Prod.mk.injEq, false_iff]
      rintro ⟨_, entries, ⟨rfl, rfl⟩, hentries, -⟩
      rw [harrange] at hentries
      cases hentries
    · simp only [harrange, Except.ok.injEq, Prod.mk.injEq]
      constructor
      · rintro ⟨rfl, rfl⟩
        exact ⟨found, entries, ⟨rfl, rfl⟩, harrange, rfl⟩
      · rintro ⟨_, others, ⟨rfl, rfl⟩, hentries, rfl⟩
        rw [harrange] at hentries
        cases hentries
        exact ⟨rfl, rfl⟩

/-- What is neither a list nor an object is no record. -/
theorem readRecord_error {title : String} {members : List MemberReader} {text : List Char}
    (hlist : ∀ more, skipSpace text ≠ '[' :: more)
    (hobject : ∀ more, skipSpace text ≠ '\x7b' :: more) :
    ∃ fault, readRecord title members text = .error fault := by
  rw [readRecord]
  split
  · exact ⟨_, rfl⟩
  · next h => exact absurd h (hlist _)
  · next h => exact absurd h (hobject _)
  · exact misfit_eq_error _ _

/-- A record is read exactly from the list of its values. -/
theorem readRecord_positional_exact {title : String} {asked : List (String × Shape)}
    (hn : (asked.map (·.1)).Nodup) (hr : ∀ member ∈ asked, member.2.Reads) {values : List Value}
    {tokens : List Token} {text : List Char}
    (hl : Laid (.openList :: (Value.itemsTokens true values ++ .closeList :: tokens)) text) :
    Exact (readRecord title (Shape.memberReaders asked) text) tokens text
      ((Shape.record title asked).Accepts (.list values)) := by
  obtain ⟨inside, he, hinside⟩ := hl.skipSpace_cons
  rw [Token.text, List.singleton_append] at he
  have hread := readPositional_exact title (Shape.memberReaders asked).length 0 hr hinside.laid
  exact (hread.image hinside fun _ _ => readRecord_list he).congr fun document =>
    (accepts_positional_iff hn).symm

/-- A record is read exactly from the objects among whose members its entries are
found. -/
theorem readRecord_object_exact {title : String} {asked : List (String × Shape)}
    (hn : (asked.map (·.1)).Nodup) (hr : ∀ member ∈ asked, member.2.Reads)
    {members : List (List Piece × Value)} {tokens : List Token} {text : List Char}
    (hl : Laid (.openObject :: (Value.membersTokens true members ++ .closeObject :: tokens)) text) :
    Exact (readRecord title (Shape.memberReaders asked) text) tokens text
      ((Shape.record title asked).Accepts (.object members)) := by
  obtain ⟨inside, he, hinside⟩ := hl.skipSpace_cons
  rw [Token.text, List.singleton_append] at he
  obtain ⟨rest, hrest, hread⟩ := readMembers_exact hn hr hinside.laid (Nat.lt_succ_self _)
  refine ⟨rest, hrest.trans hinside, fun document after => ?_⟩
  have hkeys : (Shape.memberReaders asked).map (·.1) = asked.map (·.1) := by
    rw [Shape.memberReaders_eq, List.map_map]
    rfl
  rw [readRecord_object he, accepts_object_iff hn]
  constructor
  · rintro ⟨result, entries, hresult, harrange, rfl⟩
    obtain ⟨⟨found, hf, hnodup, rfl⟩, rfl⟩ := (hread [] List.nodup_nil result after).mp hresult
    obtain ⟨hk, hfind⟩ := arrange_eq_ok_iff.mp harrange
    rw [List.append_nil] at hnodup hfind
    rw [List.map_reverse, List.nodup_reverse] at hnodup
    rw [hkeys] at hk
    have order := (perm_iff_find? hnodup (hk ▸ hn) (hk ▸ hf.key_mem)).mpr hfind
    exact ⟨⟨found, entries, hf, hk, order, rfl⟩, rfl⟩
  · rintro ⟨⟨found, entries, hf, hk, order, rfl⟩, rfl⟩
    have hnodup : (found.map (·.1)).Nodup := (order.map Prod.fst).nodup_iff.mpr (hk ▸ hn)
    have hfind := (perm_iff_find? hnodup (hk ▸ hn) (hk ▸ hf.key_mem)).mp order
    refine ⟨found.reverse, entries, (hread [] List.nodup_nil _ _).mpr
      ⟨⟨found, hf, ?_, (List.append_nil _).symm⟩, rfl⟩,
      arrange_eq_ok_iff.mpr ⟨hkeys.trans hk, hfind⟩, rfl⟩
    rw [List.append_nil, List.map_reverse, List.nodup_reverse]
    exact hnodup

/-! ## Shapes -/

/-- The character that a value begins with, if no scalar begins with it. -/
def Value.opening : Value → Option Char
  | .text _ => some '"'
  | .scalar _ => none
  | .list _ => some '['
  | .object _ => some '\x7b'

/-- The first character tells texts, lists and objects from other values. -/
theorem Laid.opening {value : Value} {tokens : List Token} {text more : List Char} {c : Char}
    (hl : Laid (value.tokens ++ tokens) text) (he : skipSpace text = c :: more)
    (hc : c ∈ ['"', '[', '\x7b']) : value.opening = some c := by
  cases value with
  | scalar literal =>
    rw [Value.tokens, List.singleton_append] at hl
    obtain ⟨rest, hfirst, -⟩ := hl.skipSpace_cons
    obtain ⟨first, others, hliteral, -⟩ := literal.valid.begins
    rw [he, Token.text, hliteral, List.cons_append] at hfirst
    rw [← (List.cons.inj hfirst).1] at hliteral
    have table : ∀ c ∈ ['"', '[', '\x7b'], c ∉ ['n', 't', 'f', '-'] ∧ isDigit c = false :=
      List.all_iff_forall_prop.mp (by decide)
    exact absurd hliteral (literal.valid.ne_cons others (table c hc))
  | text pieces =>
    rw [Value.tokens, List.singleton_append] at hl
    obtain ⟨rest, hfirst, -⟩ := hl.skipSpace_cons
    exact congrArg some (List.cons.inj (hfirst.symm.trans he)).1
  | list items =>
    rw [Value.tokens, List.cons_append] at hl
    obtain ⟨rest, hfirst, -⟩ := hl.skipSpace_cons
    exact congrArg some (List.cons.inj (hfirst.symm.trans he)).1
  | object members =>
    rw [Value.tokens, List.cons_append] at hl
    obtain ⟨rest, hfirst, -⟩ := hl.skipSpace_cons
    exact congrArg some (List.cons.inj (hfirst.symm.trans he)).1

/-- What is no text in quotes is not read as a text. -/
theorem readText_error {text : List Char} (hq : ∀ more, skipSpace text ≠ '"' :: more) :
    ∃ fault, readText text = .error fault := by
  rw [readText]
  split
  · exact ⟨_, rfl⟩
  · next h => exact absurd h (hq _)
  · exact misfit_eq_error _ _

/-- What is no list is not read as a list. -/
theorem readList_error {item : Reader Document} {text : List Char}
    (hlist : ∀ more, skipSpace text ≠ '[' :: more) :
    ∃ fault, readList item text = .error fault := by
  rw [readList]
  split
  · exact ⟨_, rfl⟩
  · next h => exact absurd h (hlist _)
  · exact misfit_eq_error _ _

/-- A list is read from its items. -/
theorem readList_eq_ok_iff {item : Reader Document} {text inside after : List Char}
    {document : Document} (he : skipSpace text = '[' :: inside) :
    readList item text = .ok (document, after) ↔
      ∃ documents, readItems item (inside.length + 1) true inside = .ok (documents, after) ∧
        document = .list documents := by
  simp only [readList, he]
  rcases readItems item (inside.length + 1) true inside with fault | ⟨documents, stop⟩
  · simp only [reduceCtorEq, false_and, exists_false]
  · simp only [Except.ok.injEq, Prod.mk.injEq]
    constructor
    · rintro ⟨rfl, rfl⟩
      exact ⟨documents, ⟨rfl, rfl⟩, rfl⟩
    · rintro ⟨_, ⟨rfl, rfl⟩, rfl⟩
      exact ⟨rfl, rfl⟩

/-- A text is accepted if its pieces spell it. -/
theorem accepts_text_iff {pieces : List Piece} {document : Document} :
    Shape.text.Accepts (.text pieces) document ↔
      ∃ content : String, document = .text content ∧ Spells content.toList pieces := by
  constructor
  · rintro ⟨hfits, hwrites⟩
    cases hwrites with
    | text spells => exact ⟨_, rfl, spells⟩
  · rintro ⟨content, rfl, hs⟩
    exact ⟨.text content, .text hs⟩

/-- A list is accepted if its items are. -/
theorem accepts_list_iff {item : Shape} {items : List Value} {document : Document} :
    (Shape.list item).Accepts (.list items) document ↔
      ∃ documents, List.Forall₂ (fun document value => item.Accepts value document)
        documents items ∧ document = .list documents := by
  have both (documents : List Document) :
      List.Forall₂ (fun document value => item.Accepts value document) documents items ↔
        (∀ document ∈ documents, item.Fits document) ∧
          List.Forall₂ Document.Writes documents items := by
    rw [← List.forall₂_and_left]
    exact ⟨fun h => h.imp fun _ _ ha => ⟨ha.fits, ha.writes⟩,
      fun h => h.imp fun _ _ ha => ⟨ha.1, ha.2⟩⟩
  constructor
  · rintro ⟨hfits, hwrites⟩
    cases hfits with
    | list fits =>
      cases hwrites with
      | list each => exact ⟨_, (both _).mpr ⟨fits, each⟩, rfl⟩
  · rintro ⟨documents, hall, rfl⟩
    obtain ⟨hfits, hwrites⟩ := (both documents).mp hall
    exact ⟨.list hfits, .list hwrites⟩

/-- In no record of a shape two members have the same key. -/
inductive Shape.Distinct : Shape → Prop where
  /-- A text has no members. -/
  | text : Distinct .text
  /-- The records in the items of a list. -/
  | list {item : Shape} (each : Distinct item) : Distinct (.list item)
  /-- A record and the records in its members. -/
  | record {title : String} {members : List (String × Shape)}
      (keys : (members.map (·.1)).Nodup) (each : ∀ member ∈ members, Distinct member.2) :
      Distinct (.record title members)

/-- A text has no two members. -/
@[simp]
theorem Shape.distinct_text : Shape.text.Distinct := .text

/-- A list has no two members with the same key if its items have none. -/
@[simp]
theorem Shape.distinct_list {item : Shape} : (Shape.list item).Distinct ↔ item.Distinct := by
  constructor
  · intro hd
    cases hd with
    | list each => exact each
  · exact .list

/-- A record has no two members with the same key if its keys differ and the same
holds of its members. -/
@[simp]
theorem Shape.distinct_record {title : String} {members : List (String × Shape)} :
    (Shape.record title members).Distinct ↔
      (members.map (·.1)).Nodup ∧ ∀ member ∈ members, member.2.Distinct := by
  constructor
  · intro hd
    cases hd with
    | record keys each => exact ⟨keys, each⟩
  · exact fun ⟨keys, each⟩ => .record keys each

/-- A value has a token. -/
theorem Value.tokens_ne_nil (value : Value) : value.tokens ≠ [] := by
  cases value <;> exact List.cons_ne_nil _ _

/-- Texts are read exactly. -/
theorem Shape.reads_text : Shape.text.Reads := by
  intro value tokens text hl
  rw [Shape.read]
  cases value with
  | text pieces =>
    rw [Value.tokens, List.singleton_append] at hl
    exact (readText_exact hl).congr fun document => accepts_text_iff.symm
  | _ =>
    refine .of_error (Value.tokens_ne_nil _) hl (readText_error fun more he => ?_) ?_
    · simpa [Value.opening] using hl.opening he (by decide)
    · rintro document ⟨hfits, hwrites⟩
      cases hfits
      cases hwrites

/-- Lists are read exactly if their items are. -/
theorem Shape.Reads.list {item : Shape} (hi : item.Reads) : (Shape.list item).Reads := by
  intro value tokens text hl
  rw [Shape.read]
  cases value with
  | list items =>
    rw [Value.tokens, List.cons_append, List.append_assoc, List.singleton_append] at hl
    obtain ⟨inside, he, hinside⟩ := hl.skipSpace_cons
    rw [Token.text, List.singleton_append] at he
    have hread := readItems_exact hi hinside.laid (Nat.lt_succ_self _)
    exact (hread.image hinside fun _ _ => readList_eq_ok_iff he).congr fun document =>
      accepts_list_iff.symm
  | _ =>
    refine .of_error (Value.tokens_ne_nil _) hl (readList_error fun more he => ?_) ?_
    · simpa [Value.opening] using hl.opening he (by decide)
    · rintro document ⟨hfits, hwrites⟩
      cases hfits
      cases hwrites

/-- Records with different keys are read exactly if their members are. -/
theorem Shape.reads_record {title : String} {asked : List (String × Shape)}
    (hn : (asked.map (·.1)).Nodup) (hr : ∀ member ∈ asked, member.2.Reads) :
    (Shape.record title asked).Reads := by
  intro value tokens text hl
  rw [Shape.read]
  cases value with
  | list values =>
    rw [Value.tokens, List.cons_append, List.append_assoc, List.singleton_append] at hl
    exact readRecord_positional_exact hn hr hl
  | object members =>
    rw [Value.tokens, List.cons_append, List.append_assoc, List.singleton_append] at hl
    exact readRecord_object_exact hn hr hl
  | _ =>
    refine .of_error (Value.tokens_ne_nil _) hl
      (readRecord_error (fun more he => ?_) fun more he => ?_) ?_
    · simpa [Value.opening] using hl.opening he (by decide)
    · simpa [Value.opening] using hl.opening he (by decide)
    · rintro document ⟨hfits, hwrites⟩
      cases hfits
      cases hwrites

/-- The reader of a shape returns exactly the documents of the shape that a value
writes. -/
theorem Shape.Distinct.reads {shape : Shape} (hd : shape.Distinct) : shape.Reads := by
  induction hd with
  | text => exact Shape.reads_text
  | list each ih => exact ih.list
  | record keys each ih => exact Shape.reads_record keys ih

/-- A whole text of a value is read exactly to the documents of the shape that the
value writes. -/
theorem Shape.Distinct.readWhole_eq_ok_iff {shape : Shape} (hd : shape.Distinct) {value : Value}
    {text : List Char} (hl : Laid value.tokens text) {document : Document} :
    shape.readWhole text = .ok document ↔ shape.Accepts value document := by
  rw [← List.append_nil value.tokens] at hl
  obtain ⟨rest, hrest, hread⟩ := hd.reads hl
  rw [Shape.readWhole]
  rcases hresult : shape.read text with fault | ⟨result, after⟩
  · constructor
    · intro hok
      cases hok
    · intro ha
      have hok := (hread document rest).mpr ⟨ha, rfl⟩
      rw [hresult] at hok
      cases hok
  · obtain ⟨ha, rfl⟩ := (hread result after).mp hresult
    simp only [hrest.laid.skipSpace_nil, Except.ok.injEq]
    constructor
    · rintro rfl
      exact ha
    · intro hother
      have hok := (hread document after).mpr ⟨hother, rfl⟩
      rw [hresult] at hok
      cases hok
      rfl

end Json

open Json (Document IsExponent IsFraction IsScalar IsWhole Laid Piece Shape Spells Value)

namespace Header

/-- No record of a header asks for a key twice. -/
theorem shape_distinct : shape.Distinct := by
  simp [shape, FunctionDecl.shape, ConstantDecl.shape, CallbackDecl.shape, EnumDecl.shape,
    Enumerator.shape, EnumAlias.shape, StructDecl.shape, StructAlias.shape, AliasedStruct.shape,
    Field.shape, Parameter.shape]

/-- A header is read from every text of a value that writes it, and no header is
read from a text of a value in which a member is missing or repeated. -/
theorem ofJson_presentation (header : Header) {value : Value} {text : String}
    (laid : Laid value.tokens text.toList) :
    (header.toDocument.Writes value → ofJson text = .ok header) ∧
      (shape.Flawed value → ∃ error, ofJson text = .error error) := by
  have hread {document : Document} := @Shape.Distinct.readWhole_eq_ok_iff shape shape_distinct
    value text.toList laid document
  constructor
  · intro hwrites
    have hok := hread.mpr ⟨fits_toDocument header, hwrites⟩
    rw [ofJson, hok]
    exact congrArg Except.ok (ofDocument_toDocument header)
  · intro hflawed
    rw [ofJson]
    rcases hresult : shape.readWhole text.toList with error | document
    · exact ⟨error, rfl⟩
    · obtain ⟨hfits, hwrites⟩ := hread.mp hresult
      exact absurd hwrites (hflawed.not_writes hfits)

/-! ### One header in mixed forms -/

/-- A header with two constants. -/
def mixedHeader : Header where
  functions := []
  constants := [⟨"A", "😀"⟩, ⟨"B", "n"⟩]
  callbacks := []
  enums := []
  enumAliases := []
  structs := []
  structAliases := []
  aliasedStructs := []

/-- The pieces of a text that is spelled by its own characters. -/
def verbatim (content : String)
    (hc : content.toList.all (fun c => 0x20 ≤ c.toNat ∧ c ≠ '"' ∧ c ≠ '\\') = true) :
    List Piece :=
  content.toList.pmap Piece.plain (List.all_iff_forall_prop.mp hc)

/-- They spell the text. -/
theorem spells_verbatim (content : String)
    (hc : content.toList.all (fun c => 0x20 ≤ c.toNat ∧ c ≠ '"' ∧ c ≠ '\\') = true) :
    Spells content.toList (verbatim content hc) :=
  Json.spells_plain content.toList _

/-- A constant as an object with its members in another order and a key twice that
is not asked for. Its value is spelled by surrogates. -/
def mixedConstant : Value :=
  .object
    [(verbatim "x" rfl,
        .object [(verbatim "x" rfl, .text [.unit (.ofNumber 0xD800)])]),
      (verbatim "value" rfl, .text [.unit (.ofNumber 0xD83D), .unit (.ofNumber 0xDE00)]),
      (verbatim "x" rfl, .scalar ⟨_, @IsScalar.number ['-'] _ _ _ (.inr rfl)
        (@IsWhole.digits '1' [] (by decide) rfl (List.forall_mem_nil _))
        (@IsFraction.digits '5' [] rfl (List.forall_mem_nil _))
        (@IsExponent.digits 'e' '3' ['+'] [] (.inl rfl) (.inr (.inl rfl)) rfl
          (List.forall_mem_nil _))⟩),
      (verbatim "name" rfl, .text (verbatim "A" rfl))]

/-- The header as the list of its lists, the other constant in it as a list. -/
def mixedValue : Value :=
  .list [.list [],
    .list [mixedConstant, .list [.text (verbatim "B" rfl), .text [.unit (.ofNumber 0x6E)]]],
    .list [], .list [], .list [], .list [], .list [], .list []]

/-- A text of the header in mixed forms. -/
def mixedText : String := String.join
  [" [ [ ] , [ \x7b \"x\" : \x7b \"x\" : \"\\ud800\" \x7d ,",
    " \"value\" : \"\\ud83d\\ude00\" ,",
    " \"x\" : -1.5e+3 , \"name\" : \"A\" \x7d ,",
    " [ \"B\" , \"\\u006e\" ] ] , [ ] , [ ] , [ ] ,",
    " [ ] , [ ] , [ ] ]"]

/-- The text is one of the value. -/
theorem laid_mixedText : Laid mixedValue.tokens mixedText.toList := by
  have he : mixedText.toList = mixedValue.tokens.flatMap fun token => [' '] ++ token.text := by
    rw [mixedText, String.toList_join]
    decide +kernel
  rw [he]
  exact Json.laid_flatMap (List.forall_mem_singleton.mpr rfl) mixedValue.tokens

/-- The header in mixed forms is written by its value. -/
theorem writes_mixedValue : mixedHeader.toDocument.Writes mixedValue := by
  have hfirst : (ConstantDecl.toDocument ⟨"A", "😀"⟩).Writes mixedConstant := by
    have hpair : (Document.text "😀").Writes
        (.text [.unit (.ofNumber 0xD83D), .unit (.ofNumber 0xDE00)]) :=
      .text (.pair ⟨by decide, by decide, by decide⟩ .nil)
    refine .object (List.reverse_perm _) (.other (spells_verbatim "x" _)
      (.entry (spells_verbatim "value" _) hpair (.other (spells_verbatim "x" _)
        (.entry (spells_verbatim "name" _) (.text (spells_verbatim "A" _)) .nil)))) ?_
    decide
  have hsecond : (ConstantDecl.toDocument ⟨"B", "n"⟩).Writes
      (.list [.text (verbatim "B" rfl), .text [.unit (.ofNumber 0x6E)]]) :=
    .positional (.cons (.text (spells_verbatim "B" _)) (.cons (.text (.unit rfl .nil)) .nil))
  exact .positional (.cons (.list .nil) (.cons (.list (.cons hfirst (.cons hsecond .nil)))
    (.cons (.list .nil) (.cons (.list .nil) (.cons (.list .nil) (.cons (.list .nil)
      (.cons (.list .nil) (.cons (.list .nil) .nil))))))))

/-- A header whose function has a key twice. -/
def repeatedValue : Value :=
  .list [.list [.object [(verbatim "name" rfl, .text (verbatim "f" rfl)),
    (verbatim "name" rfl, .scalar ⟨_, .null⟩)]]]

/-- A header is read from its mixed forms, and not with a repeated key. -/
theorem ofJson_presentation_mixed :
    (Laid mixedValue.tokens mixedText.toList ∧ mixedHeader.toDocument.Writes mixedValue ∧
      ofJson mixedText = .ok mixedHeader) ∧
    (Laid repeatedValue.tokens "[[\x7b\"name\":\"f\",\"name\":null\x7d]]".toList ∧
      shape.Flawed repeatedValue ∧
      ∃ error, ofJson "[[\x7b\"name\":\"f\",\"name\":null\x7d]]" = .error error) := by
  have hname : Spells "name".toList (verbatim "name" rfl) := spells_verbatim _ _
  have hflawed : shape.Flawed repeatedValue :=
    .positional List.mem_cons_self (.item List.mem_cons_self
      (.repeated List.mem_cons_self (List.Sublist.refl _) hname hname))
  have hlaid : Laid repeatedValue.tokens "[[\x7b\"name\":\"f\",\"name\":null\x7d]]".toList := by
    have he : "[[\x7b\"name\":\"f\",\"name\":null\x7d]]".toList =
        repeatedValue.tokens.flatMap fun token => [] ++ token.text := by
      decide +kernel
    rw [he]
    exact Json.laid_flatMap (List.forall_mem_nil _) repeatedValue.tokens
  exact ⟨⟨laid_mixedText, writes_mixedValue,
    (ofJson_presentation mixedHeader laid_mixedText).1 writes_mixedValue⟩,
    hlaid, hflawed, (ofJson_presentation mixedHeader hlaid).2 hflawed⟩

end Header

end HeaderExports
