import HeaderExports.Json.Shape
import HeaderExports.Proofs.Json.Quoted
import Mathlib.Data.List.DropRight
import Mathlib.Data.List.Nodup

/-!
# Written documents are read back

A document fits a shape if a reader of that shape may return it. Every
document that fits is read back from its written form at any depth, and the
reader stops directly behind it. The induction goes over the fitting of a
document, with one lemma for each loop of the reader.
-/

namespace HeaderExports.Json

/-! ## Readers and the texts they take -/

/-- A reader takes a text to a value whatever stands behind the text. The text
begins with a character that neither is space nor closes a bracket. -/
structure Takes {α : Type} (reader : Reader α) (text : List Char) (value : α) : Prop where
  /-- Nothing in front of the text is passed over, and a list or an object that
  goes on with the text does not end there. -/
  begins : ∃ c rest, text = c :: rest ∧ isSpace c = false ∧ c ≠ ']' ∧ c ≠ '\x7d'
  /-- The value is read and the rest is left. -/
  reads : ∀ rest, reader (text ++ rest) = .ok (value, rest)

/-- Space in front of a token is dropped. -/
theorem skipSpace_append {space : List Char} (hs : ∀ c ∈ space, isSpace c = true)
    (text : List Char) : skipSpace (space ++ text) = skipSpace text := by
  rw [skipSpace, List.dropWhile_append_of_pos hs]
  rfl

/-- Nothing is dropped in front of a character that is no space. -/
theorem skipSpace_cons {c : Char} (hc : isSpace c = false) (rest : List Char) :
    skipSpace (c :: rest) = c :: rest := by
  rw [skipSpace, List.dropWhile_cons_of_neg (by rw [hc]; exact Bool.false_ne_true)]

/-- Dropping space twice is dropping it once. -/
theorem skipSpace_skipSpace (text : List Char) : skipSpace (skipSpace text) = skipSpace text :=
  List.dropWhile_idempotent _ _

/-- A new line at a depth is space. -/
theorem isSpace_of_mem_newLine {depth : ℕ} {c : Char} (hc : c ∈ newLine depth) :
    isSpace c = true := by
  rcases List.mem_cons.mp hc with rfl | hc
  · rfl
  · rw [List.eq_of_mem_replicate hc]
    rfl

/-- Every reader of a shape passes over space in front of the document. -/
theorem Shape.read_skipSpace (shape : Shape) (text : List Char) :
    shape.read (skipSpace text) = shape.read text := by
  cases shape <;>
    simp only [Shape.read, readText, readList, readRecord, skipSpace_skipSpace]

/-- Space in front of a document does not count. -/
theorem Shape.read_append {space : List Char} (hs : ∀ c ∈ space, isSpace c = true)
    (shape : Shape) (text : List Char) : shape.read (space ++ text) = shape.read text := by
  rw [← Shape.read_skipSpace, skipSpace_append hs, Shape.read_skipSpace]

/-! ## Texts -/

/-- A text in quotes is taken to its content. -/
theorem takes_quote (content : String) : Takes readText (quote content) (.text content) where
  begins := ⟨'"', _, rfl, rfl, by decide, by decide⟩
  reads rest := by
    have hq : skipSpace (quote content ++ rest) =
        '"' :: (content.toList.flatMap escapeChar ++ '"' :: rest) := by
      simp only [quote, List.cons_append, List.append_assoc, List.nil_append]
      exact skipSpace_cons rfl _
    simp only [readText, hq, readQuoted_escapes, String.ofList_toList]

/-! ## Lists -/

/-- The first item of a list is found behind the space in front of it. -/
theorem nextItem_first {c : Char} (hc : isSpace c = false) (hb : c ≠ ']') {space : List Char}
    (hs : ∀ c ∈ space, isSpace c = true) (rest : List Char) :
    nextItem true (space ++ c :: rest) = .ok (true, c :: rest) := by
  rw [nextItem, skipSpace_append hs, skipSpace_cons hc]
  split
  · contradiction
  · next h => exact absurd (List.cons.inj h).1 hb
  · next h => rw [← h, if_pos rfl]

/-- A further item of a list is found behind a comma and space. -/
theorem nextItem_comma {c : Char} (hc : isSpace c = false) (hb : c ≠ ']') {space : List Char}
    (hs : ∀ c ∈ space, isSpace c = true) (rest : List Char) :
    nextItem false (',' :: (space ++ c :: rest)) = .ok (true, c :: rest) := by
  have hcomma : skipSpace (',' :: (space ++ c :: rest)) = ',' :: (space ++ c :: rest) :=
    skipSpace_cons rfl _
  rw [nextItem, hcomma]
  split
  · contradiction
  · next h => exact absurd (List.cons.inj h).1 (by decide)
  · next h =>
    cases h
    rw [if_neg Bool.false_ne_true, if_pos rfl, skipSpace_append hs, skipSpace_cons hc]
    split
    · contradiction
    · next h => exact absurd (List.cons.inj h).1 hb
    · rfl

/-- A list ends at its bracket. -/
theorem nextItem_end (first : Bool) {space : List Char} (hs : ∀ c ∈ space, isSpace c = true)
    (rest : List Char) : nextItem first (space ++ ']' :: rest) = .ok (false, rest) := by
  have hb : skipSpace (']' :: rest) = ']' :: rest := skipSpace_cons rfl _
  rw [nextItem, skipSpace_append hs, hb]
  rfl

/-- Items of which each is taken are read up to the end of their list. The
limit leaves one step for every item and one for the bracket. -/
theorem readItems_renderItems {item : Reader Document} {depth closing : ℕ}
    {items : List Document} (hi : ∀ document ∈ items, Takes item (document.render depth) document)
    {limit : ℕ} (hl : items.length < limit) (rest : List Char) :
    readItems item limit false
        (Document.renderItems depth items ++ (newLine closing ++ ']' :: rest)) =
      .ok (items, rest) := by
  induction items generalizing limit with
  | nil =>
    obtain ⟨limit, rfl⟩ := Nat.exists_eq_succ_of_ne_zero (Nat.ne_of_gt hl)
    simp only [Document.renderItems, List.nil_append, readItems,
      nextItem_end false (fun c => isSpace_of_mem_newLine) rest]
  | cons document items ih =>
    rw [List.length_cons] at hl
    obtain ⟨limit, rfl⟩ := Nat.exists_eq_succ_of_ne_zero (Nat.ne_of_gt (Nat.zero_lt_of_lt hl))
    have hd := hi document List.mem_cons_self
    obtain ⟨c, text, he, hc, hb, -⟩ := hd.begins
    have hrest := ih (fun d hd => hi d (List.mem_cons_of_mem _ hd)) (Nat.lt_of_succ_lt_succ hl)
    have hread := hd.reads (Document.renderItems depth items ++ (newLine closing ++ ']' :: rest))
    rw [he, List.cons_append] at hread
    simp only [Document.renderItems, List.cons_append, List.append_assoc, he, readItems,
      nextItem_comma hc hb (fun c => isSpace_of_mem_newLine), hread, hrest]

/-- A list of which each item is taken is taken. -/
theorem takes_list {item : Reader Document} {depth : ℕ} {items : List Document}
    (hi : ∀ document ∈ items, Takes item (document.render (depth + 1)) document) :
    Takes (readList item) ((Document.list items).render depth) (.list items) := by
  cases items with
  | nil =>
    refine ⟨⟨'[', [']'], rfl, rfl, by decide, by decide⟩, fun rest => ?_⟩
    have hopen : skipSpace ('[' :: ']' :: rest) = '[' :: ']' :: rest := skipSpace_cons rfl _
    have hend : nextItem true (']' :: rest) = .ok (false, rest) :=
      nextItem_end true (List.forall_mem_nil _) rest
    simp only [Document.render, List.cons_append, List.nil_append, readList, hopen, readItems,
      hend]
  | cons first items =>
    refine ⟨⟨'[', _, by rw [Document.render]; rfl, rfl, by decide, by decide⟩, fun rest => ?_⟩
    have hf := hi first List.mem_cons_self
    obtain ⟨c, text, he, hc, hb, -⟩ := hf.begins
    have hread :=
      hf.reads (Document.renderItems (depth + 1) items ++ (newLine depth ++ ']' :: rest))
    rw [he, List.cons_append] at hread
    have hcount := Document.length_le_length_renderItems (depth + 1) items
    have hrest (limit : ℕ) (hl : items.length < limit) :
        readItems item limit false
            (Document.renderItems (depth + 1) items ++ (newLine depth ++ ']' :: rest)) =
          .ok (items, rest) :=
      readItems_renderItems (fun d hd => hi d (List.mem_cons_of_mem _ hd)) hl rest
    have hopen (text : List Char) : skipSpace ('[' :: text) = '[' :: text := skipSpace_cons rfl _
    simp only [Document.render, List.cons_append, List.append_assoc, List.nil_append, readList,
      hopen, he, readItems, nextItem_first hc hb (fun c => isSpace_of_mem_newLine), hread]
    rw [hrest]
    simp only [List.length_append, List.length_cons]
    omega

/-! ## Records -/

/-- A key in quotes is found behind the space in front of it. -/
theorem skipSpace_append_quote (key : String) {space : List Char}
    (hs : ∀ c ∈ space, isSpace c = true) (rest : List Char) :
    skipSpace (space ++ (quote key ++ rest)) =
      '"' :: (key.toList.flatMap escapeChar ++ '"' :: rest) := by
  rw [skipSpace_append hs]
  simp only [quote, List.cons_append, List.append_assoc, List.nil_append]
  exact skipSpace_cons rfl _

/-- The first key of an object is read behind the space in front of it. -/
theorem nextKey_first (key : String) {space : List Char} (hs : ∀ c ∈ space, isSpace c = true)
    (rest : List Char) : nextKey true (space ++ (quote key ++ rest)) = .ok (some key, rest) := by
  rw [nextKey, skipSpace_append_quote key hs]
  split
  · contradiction
  · next h => exact absurd (List.cons.inj h).1 (by decide)
  · next h =>
    cases h
    simp only [if_true, readQuoted_escapes, String.ofList_toList]

/-- A further key of an object is read behind a comma and space. -/
theorem nextKey_comma (key : String) {space : List Char} (hs : ∀ c ∈ space, isSpace c = true)
    (rest : List Char) :
    nextKey false (',' :: (space ++ (quote key ++ rest))) = .ok (some key, rest) := by
  have hcomma : skipSpace (',' :: (space ++ (quote key ++ rest))) =
      ',' :: (space ++ (quote key ++ rest)) := skipSpace_cons rfl _
  rw [nextKey, hcomma]
  split
  · contradiction
  · next h => exact absurd (List.cons.inj h).1 (by decide)
  · next h =>
    cases h
    rw [if_neg Bool.false_ne_true, if_pos rfl, skipSpace_append_quote key hs]
    simp only [readQuoted_escapes, String.ofList_toList]

/-- An object ends at its brace. -/
theorem nextKey_end (first : Bool) {space : List Char} (hs : ∀ c ∈ space, isSpace c = true)
    (rest : List Char) : nextKey first (space ++ '\x7d' :: rest) = .ok (none, rest) := by
  have hb : skipSpace ('\x7d' :: rest) = '\x7d' :: rest := skipSpace_cons rfl _
  unfold nextKey
  rw [skipSpace_append hs, hb]
  rfl

/-- The colon behind a key is passed over. -/
theorem readColon_cons (rest : List Char) : readColon (':' :: rest) = .ok rest := by
  have hb : skipSpace (':' :: rest) = ':' :: rest := skipSpace_cons rfl _
  rw [readColon, hb]
  rfl

/-- An entry is found under its key where no key occurs twice. -/
theorem find?_key_of_mem {α : Type} {entries : List (String × α)} {entry : String × α}
    (hn : (entries.map (·.1)).Nodup) (hm : entry ∈ entries) :
    entries.find? (·.1 = entry.1) = some entry := by
  induction entries with
  | nil => cases hm
  | cons first entries ih =>
    rw [List.map_cons, List.nodup_cons] at hn
    rcases List.mem_cons.mp hm with rfl | hm
    · exact List.find?_cons_of_pos (by simp)
    · have hne : first.1 ≠ entry.1 := by
        intro he
        exact hn.1 (he ▸ List.mem_map_of_mem hm)
      rw [List.find?_cons_of_neg (by simpa using hne)]
      exact ih hn.2 hm

/-- The reader of a member takes the value of an entry behind the blank that
is written in front of it. -/
def TakesEntry (depth : ℕ) (entry : String × Document) (member : MemberReader) : Prop :=
  ∀ rest, member.2 (' ' :: (entry.2.render depth ++ rest)) = .ok (entry.2, rest)

/-- Entries of which each is asked for and taken are read up to the end of
their object. The entries found are kept from the last one to the first. -/
theorem readMembers_renderMembers {members : List MemberReader} {depth closing : ℕ}
    {entries : List (String × Document)}
    (he : ∀ entry ∈ entries, ∃ member, members.find? (·.1 = entry.1) = some member ∧
      TakesEntry depth entry member)
    {found : List (String × Document)}
    (hn : ((entries.reverse ++ found).map (·.1)).Nodup) {limit : ℕ}
    (hl : entries.length < limit) (rest : List Char) :
    readMembers members limit false found
        (Document.renderMembers depth entries ++ (newLine closing ++ '\x7d' :: rest)) =
      .ok (entries.reverse ++ found, rest) := by
  induction entries generalizing limit found with
  | nil =>
    obtain ⟨limit, rfl⟩ := Nat.exists_eq_succ_of_ne_zero (Nat.ne_of_gt hl)
    rw [Document.renderMembers, List.nil_append, List.reverse_nil, List.nil_append]
    exact readMembers_close found (nextKey_end false (fun c => isSpace_of_mem_newLine) rest)
  | cons entry entries ih =>
    rw [List.length_cons] at hl
    obtain ⟨limit, rfl⟩ := Nat.exists_eq_succ_of_ne_zero (Nat.ne_of_gt (Nat.zero_lt_of_lt hl))
    obtain ⟨key, value⟩ := entry
    obtain ⟨member, hfind, htakes⟩ := he (key, value) List.mem_cons_self
    rw [List.reverse_cons, List.append_assoc, List.singleton_append] at hn ⊢
    have hnew : found.any (·.1 = key) = false := by
      rw [List.map_append, List.map_cons] at hn
      have hk := (List.nodup_cons.mp (List.Nodup.of_append_right hn)).1
      rw [List.any_eq_false]
      intro other hm heq
      exact hk (List.mem_map.mpr ⟨other, hm, by simpa using heq⟩)
    have hread :=
      htakes (Document.renderMembers depth entries ++ (newLine closing ++ '\x7d' :: rest))
    have hrest := ih (fun e hm => he e (List.mem_cons_of_mem _ hm)) hn (Nat.lt_of_succ_lt_succ hl)
    simp only at hfind hread
    simp only [Document.renderMembers, Document.renderMember, List.cons_append, List.append_assoc,
      List.nil_append, readMembers, nextKey_comma key (fun c => isSpace_of_mem_newLine), hfind,
      hnew, Bool.false_eq_true, if_false, readColon_cons, hread, hrest]

/-- A record whose keys are the ones asked for, none of them twice, and of
which each value is taken, is taken. -/
theorem takes_record (title : String) {members : List MemberReader} {depth : ℕ}
    {entries : List (String × Document)} (hk : members.map (·.1) = entries.map (·.1))
    (hn : (entries.map (·.1)).Nodup)
    (he : ∀ entry ∈ entries, ∃ member, members.find? (·.1 = entry.1) = some member ∧
      TakesEntry (depth + 1) entry member) :
    Takes (readRecord title members) ((Document.record entries).render depth)
      (.record entries) := by
  have hopen (text : List Char) : skipSpace ('\x7b' :: text) = '\x7b' :: text :=
    skipSpace_cons rfl _
  cases entries with
  | nil =>
    refine ⟨⟨'\x7b', ['\x7d'], rfl, rfl, by decide, by decide⟩, fun rest => ?_⟩
    rw [List.map_nil, List.map_eq_nil_iff] at hk
    have hend : nextKey true ('\x7d' :: rest) = .ok (none, rest) :=
      nextKey_end true (List.forall_mem_nil _) rest
    rw [Document.render, List.cons_append, List.cons_append, List.nil_append, readRecord, hopen]
    simp only [readMembers_close [] hend, hk, arrange]
  | cons entry entries =>
    refine ⟨⟨'\x7b', _, by rw [Document.render]; rfl, rfl, by decide, by decide⟩, fun rest => ?_⟩
    obtain ⟨key, value⟩ := entry
    obtain ⟨member, hfind, htakes⟩ := he (key, value) List.mem_cons_self
    have hread := htakes
      (Document.renderMembers (depth + 1) entries ++ (newLine depth ++ '\x7d' :: rest))
    have hreversed : ((entries.reverse ++ [(key, value)]).map (·.1)).Nodup := by
      rw [← List.reverse_cons, List.map_reverse, List.nodup_reverse]
      exact hn
    have hmore (limit : ℕ) (hl : entries.length < limit) :=
      @readMembers_renderMembers _ _ depth entries
        (fun e hm => he e (List.mem_cons_of_mem _ hm)) _ hreversed _ hl rest
    have hcount := Document.length_le_length_renderMembers (depth + 1) entries
    have harrange : arrange (entries.reverse ++ [(key, value)]) rest members =
        .ok ((key, value) :: entries) := by
      refine arrange_eq_ok hk (fun e hm => find?_key_of_mem hreversed ?_) rest
      rw [← List.reverse_cons]
      exact List.mem_reverse.mpr hm
    simp only at hfind hread
    simp only [Document.render, Document.renderMember, List.append_assoc, List.cons_append,
      List.nil_append, readRecord, hopen, readMembers,
      nextKey_first key (fun c => isSpace_of_mem_newLine), hfind, List.any_nil,
      Bool.false_eq_true, if_false, readColon_cons, hread]
    rw [hmore]
    · simp only [harrange]
    · simp only [List.length_append, List.length_cons]
      omega

/-! ## Shapes -/

/-- The documents that a reader of a shape may return. A record has its members
in the order of the shape, and none of its keys twice. -/
inductive Shape.Fits : Shape → Document → Prop where
  /-- Any text. -/
  | text (content : String) : Fits .text (.text content)
  /-- A list of fitting items. -/
  | list {item : Shape} {items : List Document} (each : ∀ document ∈ items, Fits item document) :
      Fits (.list item) (.list items)
  /-- A record of fitting members. -/
  | record {title : String} {members : List (String × Shape)} {entries : List (String × Document)}
      (keys : members.map (·.1) = entries.map (·.1)) (distinct : (entries.map (·.1)).Nodup)
      (each : ∀ pair ∈ members.zip entries, Fits pair.1.2 pair.2.2) :
      Fits (.record title members) (.record entries)

/-- A further pair of a member and an entry fits if these two do. -/
theorem Shape.Fits.cons {member : String × Shape} {entry : String × Document}
    {members : List (String × Shape)} {entries : List (String × Document)}
    (hf : member.2.Fits entry.2) (hr : ∀ pair ∈ members.zip entries, pair.1.2.Fits pair.2.2) :
    ∀ pair ∈ (member :: members).zip (entry :: entries), pair.1.2.Fits pair.2.2 := by
  intro pair hm
  rw [List.zip_cons_cons] at hm
  rcases List.mem_cons.mp hm with rfl | hm
  · exact hf
  · exact hr pair hm

/-- Without members nothing is left to fit. -/
theorem Shape.Fits.nil (entries : List (String × Document)) :
    ∀ pair ∈ ([] : List (String × Shape)).zip entries, pair.1.2.Fits pair.2.2 := by
  intro pair hm
  cases hm

/-- Items that fit one by one make a fitting list. -/
theorem Shape.Fits.map {α : Type} {item : Shape} {toDocument : α → Document}
    (hf : ∀ value, item.Fits (toDocument value)) (values : List α) :
    (Shape.list item).Fits (.list (values.map toDocument)) := by
  refine .list fun document hm => ?_
  obtain ⟨value, -, rfl⟩ := List.mem_map.mp hm
  exact hf value

/-- In front of every entry stands the member with its key. -/
theorem exists_mem_zip_of_keys {α β : Type} {members : List (String × α)}
    {entries : List (String × β)} (hk : members.map (·.1) = entries.map (·.1))
    {entry : String × β} (hm : entry ∈ entries) :
    ∃ member, (member, entry) ∈ members.zip entries ∧ member ∈ members ∧ member.1 = entry.1 := by
  induction members generalizing entries with
  | nil =>
    rw [List.map_nil, eq_comm, List.map_eq_nil_iff] at hk
    rw [hk] at hm
    cases hm
  | cons first members ih =>
    cases entries with
    | nil => cases hm
    | cons other entries =>
      rw [List.map_cons, List.map_cons, List.cons.injEq] at hk
      rcases List.mem_cons.mp hm with rfl | hm
      · exact ⟨first, List.mem_cons_self, List.mem_cons_self, hk.1⟩
      · obtain ⟨member, hpair, hmember, hkey⟩ := ih hk.2 hm
        exact ⟨member, List.mem_cons_of_mem _ hpair, List.mem_cons_of_mem _ hmember, hkey⟩

/-- Every document that fits a shape is taken from its written form. -/
theorem Shape.Fits.takes {shape : Shape} {document : Document} (hf : shape.Fits document)
    (depth : ℕ) : Takes shape.read (document.render depth) document := by
  induction hf generalizing depth with
  | text content =>
    rw [Shape.read, Document.render]
    exact takes_quote content
  | list each ih =>
    rw [Shape.read]
    exact takes_list fun document hm => ih document hm (depth + 1)
  | @record title members entries keys distinct each ih =>
    rw [Shape.read, Shape.memberReaders_eq]
    refine takes_record title (by rw [List.map_map]; exact keys) distinct fun entry hm => ?_
    obtain ⟨member, hpair, hmember, hkey⟩ := exists_mem_zip_of_keys keys hm
    have hreaders : ((members.map fun member => (member.1, member.2.read)).map (·.1)).Nodup := by
      rw [List.map_map]
      exact keys ▸ distinct
    have hfind := find?_key_of_mem hreaders (List.mem_map_of_mem hmember)
    refine ⟨(member.1, member.2.read), hkey ▸ hfind, fun rest => ?_⟩
    have hspace : ∀ c ∈ [' '], isSpace c = true := List.forall_mem_singleton.mpr rfl
    have hblank := Shape.read_append hspace member.2 (entry.2.render (depth + 1) ++ rest)
    exact hblank.trans ((ih _ hpair (depth + 1)).reads rest)

/-- A whole text that a document is written as is read back. -/
theorem Shape.Fits.readWhole_written {shape : Shape} {document : Document}
    (hf : shape.Fits document) : shape.readWhole document.written.toList = .ok document := by
  have hread := (hf.takes 0).reads []
  have hend : skipSpace [] = [] := rfl
  rw [List.append_nil] at hread
  rw [Document.written, String.toList_ofList, Shape.readWhole, hread]
  simp only [hend]

end HeaderExports.Json
