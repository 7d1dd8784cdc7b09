import HeaderExports.Json.Skip

/-!
# Shapes of documents

A shape says which documents a reader takes: a text, a list of items of one
shape, or a record with a title and members under fixed keys. A record may be
written as an object, with its members in any order and others between them,
or as the list of its members in their own order. What is read has its
members in their own order.
-/

namespace HeaderExports.Json

/-- The shape of a document. -/
inductive Shape where
  /-- A text. -/
  | text
  /-- A list of documents of one shape. -/
  | list (item : Shape)
  /-- A record with its title and the shapes of its members. -/
  | record (title : String) (members : List (String × Shape))

/-- Read a text. -/
def readText : Reader Document := fun text =>
  match skipSpace text with
  | [] => .error (Cause.endInValue.before [])
  | '"' :: rest =>
    match readQuoted true rest with
    | .error fault => .error fault
    | .ok (content, rest) => .ok (.text (String.ofList content), rest)
  | rest => misfit "a string" rest

/-- Whether a list has a next item, and the text from that item on or behind the
list. -/
def nextItem (first : Bool) (text : List Char) : Except Fault (Bool × List Char) :=
  match skipSpace text with
  | [] => .error (Cause.endInList.before [])
  | ']' :: rest => .ok (false, rest)
  | c :: rest =>
    if first then .ok (true, c :: rest)
    else if c = ',' then
      match skipSpace rest with
      | [] => .error (Cause.endInValue.before [])
      | ']' :: rest => .error (Cause.trailingComma.on (']' :: rest))
      | rest => .ok (true, rest)
    else .error (Cause.noCommaInList.on (c :: rest))

/-- Read items up to the end of a list. Every item takes a character. -/
def readItems (item : Reader Document) : Nat → Bool → Reader (List Document)
  | 0, _, _ => .error (Cause.endInList.before [])
  | limit + 1, first, text =>
    match nextItem first text with
    | .error fault => .error fault
    | .ok (false, rest) => .ok ([], rest)
    | .ok (true, rest) =>
      match item rest with
      | .error fault => .error fault
      | .ok (value, rest) =>
        match readItems item limit false rest with
        | .error fault => .error fault
        | .ok (values, rest) => .ok (value :: values, rest)

/-- What a step through a list can do. -/
theorem readItems_eq_ok_iff {item : Reader Document} {limit : Nat} {first : Bool}
    {text after : List Char} {documents : List Document} :
    readItems item (limit + 1) first text = .ok (documents, after) ↔
      nextItem first text = .ok (false, after) ∧ documents = [] ∨
      ∃ inside document behind more, nextItem first text = .ok (true, inside) ∧
        item inside = .ok (document, behind) ∧
        readItems item limit false behind = .ok (more, after) ∧ documents = document :: more := by
  rw [readItems]
  rcases nextItem first text with fault | ⟨_ | _, inside⟩
  · simp
  · simp [and_comm, eq_comm]
  · rcases hitem : item inside with fault | ⟨document, behind⟩
    · simp [hitem]
    · rcases hmore : readItems item limit false behind with fault | ⟨more, stop⟩
      · simp [hitem, hmore]
      · simp only [hitem, hmore]
        constructor
        · rintro ⟨⟩
          exact .inr ⟨inside, document, behind, more, rfl, hitem, hmore, rfl⟩
        · rintro (⟨⟨⟩, -⟩ | ⟨_, _, _, _, ⟨⟩, hvalue, hvalues, rfl⟩)
          cases hitem.symm.trans hvalue
          cases hmore.symm.trans hvalues
          rfl

/-- Read a list. -/
def readList (item : Reader Document) : Reader Document := fun text =>
  match skipSpace text with
  | [] => .error (Cause.endInValue.before [])
  | '[' :: rest =>
    match readItems item (rest.length + 1) true rest with
    | .error fault => .error fault
    | .ok (items, rest) => .ok (.list items, rest)
  | rest => misfit "a sequence" rest

/-- A member that a record asks for: its key and how its value is read. -/
abbrev MemberReader := String × Reader Document

/-- The key of the next member of an object, if it has one, and the text behind
the key or behind the object. -/
def nextKey (first : Bool) (text : List Char) : Except Fault (Option String × List Char) :=
  let key (rest : List Char) : Except Fault (Option String × List Char) :=
    match readQuoted true rest with
    | .error fault => .error fault
    | .ok (content, rest) => .ok (some (String.ofList content), rest)
  match skipSpace text with
  | [] => .error (Cause.endInObject.before [])
  | '\x7d' :: rest => .ok (none, rest)
  | c :: rest =>
    if first then if c = '"' then key rest else .error (Cause.noKey.on (c :: rest))
    else if c = ',' then
      match skipSpace rest with
      | [] => .error (Cause.endInValue.before [])
      | '"' :: rest => key rest
      | '\x7d' :: rest => .error (Cause.trailingComma.on ('\x7d' :: rest))
      | rest => .error (Cause.noKey.on rest)
    else .error (Cause.noCommaInObject.on (c :: rest))

/-- Pass over the colon between a key and its value. -/
def readColon (text : List Char) : Except Fault (List Char) :=
  match skipSpace text with
  | [] => .error (Cause.endInObject.before [])
  | ':' :: rest => .ok rest
  | rest => .error (Cause.noColon.on rest)

/-- The text behind the space, and behind the end of the object if it ends
there. -/
def behindObject (text : List Char) : List Char :=
  match skipSpace text with
  | '\x7d' :: rest => rest
  | rest => rest

/-- Read members up to the end of an object. Those not asked for are skipped.
Every member takes a character. -/
def readMembers (members : List MemberReader) :
    Nat → Bool → List (String × Document) → Reader (List (String × Document))
  | 0, _, _, _ => .error (Cause.endInObject.before [])
  | limit + 1, first, found, text =>
    match nextKey first text with
    | .error fault => .error fault
    | .ok (none, rest) => .ok (found, rest)
    | .ok (some key, rest) =>
      match members.find? (·.1 = key) with
      | some member =>
        if found.any (·.1 = key) then .error ((Cause.duplicate key).before (behindObject rest))
        else
          match readColon rest with
          | .error fault => .error fault
          | .ok rest =>
            match member.2 rest with
            | .error fault => .error fault
            | .ok (value, rest) => readMembers members limit false ((key, value) :: found) rest
      | none =>
        match readColon rest with
        | .error fault => .error fault
        | .ok rest =>
          match skipValue rest with
          | .error fault => .error fault
          | .ok rest => readMembers members limit false found rest

/-- Behind the last member the object ends. -/
theorem readMembers_close {members : List MemberReader} {limit : Nat} {first : Bool}
    {text rest : List Char} (found : List (String × Document))
    (hk : nextKey first text = .ok (none, rest)) :
    readMembers members (limit + 1) first found text = .ok (found, rest) := by
  simp only [readMembers, hk]

/-- The members found, in the order of their keys. -/
def arrange (found : List (String × Document)) (rest : List Char) :
    List MemberReader → Except Fault (List (String × Document))
  | [] => .ok []
  | member :: more =>
    match found.find? (·.1 = member.1) with
    | none => .error ((Cause.missing member.1).before rest)
    | some entry =>
      match arrange found rest more with
      | .error fault => .error fault
      | .ok entries => .ok (entry :: entries)

/-- Entries found under all keys asked for are put in the order of the keys. -/
theorem arrange_eq_ok {found entries : List (String × Document)} {members : List MemberReader}
    (hk : members.map (·.1) = entries.map (·.1))
    (hf : ∀ entry ∈ entries, found.find? (·.1 = entry.1) = some entry) (rest : List Char) :
    arrange found rest members = .ok entries := by
  induction members generalizing entries with
  | nil =>
    rw [List.map_nil, eq_comm, List.map_eq_nil_iff] at hk
    rw [hk, arrange]
  | cons member members ih =>
    cases entries with
    | nil => cases hk
    | cons entry entries =>
      rw [List.map_cons, List.map_cons, List.cons.injEq] at hk
      have hfirst := hf entry List.mem_cons_self
      have hrest := ih hk.2 fun e hm => hf e (List.mem_cons_of_mem _ hm)
      simp only [arrange, hk.1, hfirst, hrest]

/-- Read members in their own order from a list. -/
def readPositional (title : String) (count : Nat) :
    Nat → List MemberReader → Reader (List (String × Document))
  | _, [], text =>
    match skipSpace text with
    | [] => .error (Cause.endInList.before [])
    | ']' :: rest => .ok ([], rest)
    | ',' :: rest =>
      match skipSpace rest with
      | ']' :: rest => .error (Cause.trailingComma.on (']' :: rest))
      | rest => .error (Cause.trailingCharacters.on rest)
    | rest => .error (Cause.trailingCharacters.on rest)
  | position, member :: more, text =>
    match nextItem (position == 0) text with
    | .error fault => .error fault
    | .ok (false, rest) => .error ((Cause.tooShort position title count).before rest)
    | .ok (true, rest) =>
      match member.2 rest with
      | .error fault => .error fault
      | .ok (value, rest) =>
        match readPositional title count (position + 1) more rest with
        | .error fault => .error fault
        | .ok (values, rest) => .ok ((member.1, value) :: values, rest)

/-- What a step through the values of a record can do. -/
theorem readPositional_cons_eq_ok_iff {title : String} {count position : Nat}
    {member : MemberReader} {members : List MemberReader} {text after : List Char}
    {entries : List (String × Document)} :
    readPositional title count position (member :: members) text = .ok (entries, after) ↔
      ∃ inside document behind more, nextItem (position == 0) text = .ok (true, inside) ∧
        member.2 inside = .ok (document, behind) ∧
        readPositional title count (position + 1) members behind = .ok (more, after) ∧
        entries = (member.1, document) :: more := by
  rw [readPositional]
  rcases nextItem (position == 0) text with fault | ⟨_ | _, inside⟩
  · simp
  · simp
  · rcases hvalue : member.2 inside with fault | ⟨document, behind⟩
    · simp [hvalue]
    · rcases hmore : readPositional title count (position + 1) members behind
        with fault | ⟨more, stop⟩
      · simp [hvalue, hmore]
      · simp only [hvalue, hmore]
        constructor
        · rintro ⟨⟩
          exact ⟨inside, document, behind, more, rfl, hvalue, hmore, rfl⟩
        · rintro ⟨_, _, _, _, ⟨⟩, hread, hreads, rfl⟩
          cases hvalue.symm.trans hread
          cases hmore.symm.trans hreads
          rfl

/-- Read a record. -/
def readRecord (title : String) (members : List MemberReader) : Reader Document := fun text =>
  match skipSpace text with
  | [] => .error (Cause.endInValue.before [])
  | '[' :: rest =>
    match readPositional title members.length 0 members rest with
    | .error fault => .error fault
    | .ok (values, rest) => .ok (.record values, rest)
  | '\x7b' :: rest =>
    match readMembers members (rest.length + 1) true [] rest with
    | .error fault => .error fault
    | .ok (found, rest) =>
      match arrange found rest members with
      | .error fault => .error fault
      | .ok values => .ok (.record values, rest)
  | rest => misfit ("struct " ++ title) rest

namespace Shape

mutual

/-- Read a document of a shape. -/
def read : Shape → Reader Document
  | text => readText
  | list item => readList (read item)
  | record title members => readRecord title (memberReaders members)

/-- How the members of a record are read. -/
def memberReaders : List (String × Shape) → List MemberReader
  | [] => []
  | first :: rest => memberReader first :: memberReaders rest

/-- How a member of a record is read. -/
def memberReader : String × Shape → MemberReader
  | (key, shape) => (key, read shape)

end

/-- The members of a record are read under their keys, each by its shape. -/
theorem memberReaders_eq (members : List (String × Shape)) :
    memberReaders members = members.map fun member => (member.1, member.2.read) := by
  induction members with
  | nil => rw [memberReaders, List.map_nil]
  | cons member members ih =>
    rw [memberReaders, ih, List.map_cons, memberReader]

/-- Read a whole text as a document of a shape. -/
def readWhole (shape : Shape) (text : List Char) : Except ReadError Document :=
  match shape.read text with
  | .error fault => .error (fault.locate text)
  | .ok (document, rest) =>
    match skipSpace rest with
    | [] => .ok document
    | rest => .error ((Cause.trailingCharacters.on rest).locate text)

end Shape

end HeaderExports.Json
