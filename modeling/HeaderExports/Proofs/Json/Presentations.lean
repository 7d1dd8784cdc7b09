import HeaderExports.Proofs.Json.Values

/-!
# Ways to write a document

A JSON value writes a document if it differs from the document only in what does
not count: a text may be spelled in any way, a record may be written as the list
of its values or as an object with its members in any order, and such an object
may have further members, whose keys are not those of the record. A value is
flawed for a shape if somewhere a record that is written as an object lacks one
of its members or has one twice. No flawed value writes a document of the shape.
-/

namespace HeaderExports.Json

/-! ## Writing a document -/

/-- The members of an object are entries in their order, with members under other
keys between them. -/
inductive Members (writes : Document → Value → Prop) :
    List (String × Document) → List String → List (List Piece × Value) → Prop where
  /-- An object without members has no entries. -/
  | nil : Members writes [] [] []
  /-- An entry under its key. -/
  | entry {entries : List (String × Document)} {others : List String}
      {members : List (List Piece × Value)} {key : String} {pieces : List Piece}
      {document : Document} {value : Value} (spells : Spells key.toList pieces)
      (written : writes document value) (more : Members writes entries others members) :
      Members writes ((key, document) :: entries) others ((pieces, value) :: members)
  /-- A member under another key, with any value. -/
  | other {entries : List (String × Document)} {others : List String}
      {members : List (List Piece × Value)} {key : String} {pieces : List Piece} {value : Value}
      (spells : Spells key.toList pieces) (more : Members writes entries others members) :
      Members writes entries (key :: others) ((pieces, value) :: members)

/-- The values that write a document. -/
inductive Document.Writes : Document → Value → Prop where
  /-- A text in any spelling. -/
  | text {content : String} {pieces : List Piece} (spells : Spells content.toList pieces) :
      Writes (.text content) (.text pieces)
  /-- A list, item by item. -/
  | list {documents : List Document} {items : List Value}
      (each : List.Forall₂ Writes documents items) : Writes (.list documents) (.list items)
  /-- A record as the list of its values. -/
  | positional {entries : List (String × Document)} {values : List Value}
      (each : List.Forall₂ Writes (entries.map (·.2)) values) :
      Writes (.record entries) (.list values)
  /-- A record as an object with its members in any order and others between
  them. -/
  | object {entries found : List (String × Document)} {others : List String}
      {members : List (List Piece × Value)} (order : found.Perm entries)
      (each : Members Writes found others members)
      (unknown : ∀ key ∈ others, key ∉ entries.map (·.1)) :
      Writes (.record entries) (.object members)

/-- The values in which somewhere a record that is written as an object lacks a
member or has one twice. -/
inductive Shape.Flawed : Shape → Value → Prop where
  /-- No member has a key that is asked for. -/
  | missing {title : String} {asked : List (String × Shape)} {members : List (List Piece × Value)}
      {key : String} (isAsked : key ∈ asked.map (·.1))
      (absent : ∀ member ∈ members, ¬ Spells key.toList member.1) :
      Flawed (.record title asked) (.object members)
  /-- Two members have a key that is asked for. -/
  | repeated {title : String} {asked : List (String × Shape)}
      {members : List (List Piece × Value)} {first second : List Piece × Value} {key : String}
      (isAsked : key ∈ asked.map (·.1)) (twice : [first, second].Sublist members)
      (spellsFirst : Spells key.toList first.1) (spellsSecond : Spells key.toList second.1) :
      Flawed (.record title asked) (.object members)
  /-- An item of a list is flawed. -/
  | item {shape : Shape} {items : List Value} {value : Value} (isItem : value ∈ items)
      (flaw : Flawed shape value) : Flawed (.list shape) (.list items)
  /-- A value in the list of the values of a record is flawed. -/
  | positional {title : String} {asked : List (String × Shape)} {values : List Value}
      {pair : (String × Shape) × Value} (placed : pair ∈ asked.zip values)
      (flaw : Flawed pair.1.2 pair.2) : Flawed (.record title asked) (.list values)
  /-- The value of a member of a record is flawed. -/
  | member {title : String} {asked : List (String × Shape)} {members : List (List Piece × Value)}
      {key : String} {shape : Shape} {member : List Piece × Value} (isAsked : (key, shape) ∈ asked)
      (isMember : member ∈ members) (spells : Spells key.toList member.1)
      (flaw : Flawed shape member.2) : Flawed (.record title asked) (.object members)

/-! ## Members by their keys -/

section
variable {writes : Document → Value → Prop} {entries : List (String × Document)}
  {others : List String} {members : List (List Piece × Value)}

/-- A member is an entry under its key, or its key is one of the others. -/
theorem Members.of_mem (hm : Members writes entries others members) {member : List Piece × Value}
    (hmember : member ∈ members) {key : String} (hk : Spells key.toList member.1) :
    (∃ document, (key, document) ∈ entries ∧ writes document member.2) ∨ key ∈ others := by
  induction hm with
  | nil => cases hmember
  | entry spells written more ih =>
    rcases List.mem_cons.mp hmember with rfl | hmember
    · obtain rfl := String.toList_inj.mp (hk.unique spells)
      exact .inl ⟨_, List.mem_cons_self, written⟩
    · exact (ih hmember).imp_left fun ⟨document, he, hw⟩ =>
        ⟨document, List.mem_cons_of_mem _ he, hw⟩
  | other spells more ih =>
    rcases List.mem_cons.mp hmember with rfl | hmember
    · obtain rfl := String.toList_inj.mp (hk.unique spells)
      exact .inr List.mem_cons_self
    · exact (ih hmember).imp_right (List.mem_cons_of_mem _)

/-- Every entry has a member that spells its key. -/
theorem Members.exists_mem (hm : Members writes entries others members)
    {entry : String × Document} (he : entry ∈ entries) :
    ∃ member ∈ members, Spells entry.1.toList member.1 := by
  induction hm with
  | nil => cases he
  | entry spells written more ih =>
    rcases List.mem_cons.mp he with rfl | he
    · exact ⟨_, List.mem_cons_self, spells⟩
    · obtain ⟨member, hmember, hk⟩ := ih he
      exact ⟨member, List.mem_cons_of_mem _ hmember, hk⟩
  | other spells more ih =>
    obtain ⟨member, hmember, hk⟩ := ih he
    exact ⟨member, List.mem_cons_of_mem _ hmember, hk⟩

/-- Where no entry has the key of another one, no two members have the key of an
entry. -/
theorem Members.not_twice (hm : Members writes entries others members)
    (hn : (entries.map (·.1)).Nodup) {first second : List Piece × Value} {key : String}
    (ho : key ∉ others) (ht : [first, second].Sublist members)
    (hf : Spells key.toList first.1) (hs : Spells key.toList second.1) : False := by
  induction hm with
  | nil => cases ht
  | entry spells written more ih =>
    rw [List.map_cons, List.nodup_cons] at hn
    cases ht with
    | cons _ ht => exact ih hn.2 ho ht
    | cons_cons _ ht =>
      obtain rfl := String.toList_inj.mp (hf.unique spells)
      rcases more.of_mem (List.singleton_sublist.mp ht) hs with ⟨document, he, -⟩ | hk
      · exact hn.1 (List.mem_map.mpr ⟨_, he, rfl⟩)
      · exact ho hk
  | other spells more ih =>
    rw [List.mem_cons, not_or] at ho
    cases ht with
    | cons _ ht => exact ih hn ho.2 ht
    | cons_cons _ ht => exact ho.1 (String.toList_inj.mp (hf.unique spells))

end

/-! ## Flawed values write no document -/

/-- Where values write the entries of a record, the entry between a member and a
value is written by that value. -/
theorem exists_entry_of_mem_zip {asked : List (String × Shape)} {entries : List (String × Document)}
    {values : List Value} (hk : asked.map (·.1) = entries.map (·.1))
    (hw : List.Forall₂ Document.Writes (entries.map (·.2)) values)
    {pair : (String × Shape) × Value} (hp : pair ∈ asked.zip values) :
    ∃ entry, (pair.1, entry) ∈ asked.zip entries ∧ entry.2.Writes pair.2 := by
  induction asked generalizing entries values with
  | nil => cases hp
  | cons member asked ih =>
    cases entries with
    | nil => cases hk
    | cons entry entries =>
      rw [List.map_cons, List.map_cons, List.cons.injEq] at hk
      cases hw with
      | @cons _ value _ values written more =>
        rw [List.zip_cons_cons, List.mem_cons] at hp
        rcases hp with rfl | hp
        · exact ⟨entry, List.mem_cons_self, written⟩
        · obtain ⟨found, hfound, hw⟩ := ih hk.2 more hp
          exact ⟨found, List.mem_cons_of_mem _ hfound, hw⟩

/-- Every item of a list that writes documents writes one of them. -/
theorem exists_document_of_mem {documents : List Document} {items : List Value}
    (hw : List.Forall₂ Document.Writes documents items) {value : Value} (hm : value ∈ items) :
    ∃ document ∈ documents, document.Writes value := by
  induction hw with
  | nil => cases hm
  | cons written more ih =>
    rcases List.mem_cons.mp hm with rfl | hm
    · exact ⟨_, List.mem_cons_self, written⟩
    · obtain ⟨document, hd, hw⟩ := ih hm
      exact ⟨document, List.mem_cons_of_mem _ hd, hw⟩

/-- A flawed value writes no document of the shape. -/
theorem Shape.Flawed.not_writes {shape : Shape} {value : Value} (hf : shape.Flawed value)
    {document : Document} (hfits : shape.Fits document) : ¬ document.Writes value := by
  intro hw
  induction hf generalizing document with
  | missing isAsked absent =>
    cases hfits with
    | record keys distinct each =>
      cases hw with
      | object order found unknown =>
        rw [keys] at isAsked
        obtain ⟨entry, he, rfl⟩ := List.mem_map.mp isAsked
        obtain ⟨member, hmember, hk⟩ := found.exists_mem (order.mem_iff.mpr he)
        exact absent member hmember hk
  | repeated isAsked twice spellsFirst spellsSecond =>
    cases hfits with
    | record keys distinct each =>
      cases hw with
      | object order found unknown =>
        rw [keys] at isAsked
        have hn := (order.map (·.1)).nodup_iff.mpr distinct
        exact found.not_twice hn (fun ho => unknown _ ho isAsked) twice spellsFirst spellsSecond
  | item isItem flaw ih =>
    cases hfits with
    | list fits =>
      cases hw with
      | list each =>
        obtain ⟨document, hd, hw⟩ := exists_document_of_mem each isItem
        exact ih (fits document hd) hw
  | positional placed flaw ih =>
    cases hfits with
    | record keys distinct fits =>
      cases hw with
      | positional each =>
        obtain ⟨entry, he, hw⟩ := exists_entry_of_mem_zip keys each placed
        exact ih (fits _ he) hw
  | member isAsked isMember spells flaw ih =>
    cases hfits with
    | record keys distinct fits =>
      cases hw with
      | object order found unknown =>
        have hkey := List.mem_map_of_mem isAsked (f := (·.1))
        rw [keys] at hkey
        rcases found.of_mem isMember spells with ⟨document, he, hw⟩ | ho
        · obtain ⟨asking, hpair, hasking, hk⟩ := exists_mem_zip_of_keys keys (order.mem_iff.mp he)
          have hsame := List.inj_on_of_nodup_map (keys ▸ distinct) hasking isAsked hk
          rw [hsame] at hpair
          exact ih (fits _ hpair) hw
        · exact unknown _ ho hkey

end HeaderExports.Json
