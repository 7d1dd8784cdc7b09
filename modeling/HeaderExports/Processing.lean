import HeaderExports.Digest.Blake3
import HeaderExports.Directory
import HeaderExports.Extraction
import HeaderExports.Text.Quoted

/-!
# Processing headers

Headers are processed from text, from one file, or from many files at once.
An export marker may be chosen, and a marker that is refused stops the
processing before any file is looked at. Files are reached through a function
from paths to texts. In a batch a file that cannot be read fails alone.
-/

namespace HeaderExports

/-- Why a header cannot be processed. -/
inductive ProcessError where
  /-- The export marker is refused. -/
  | marker (error : MarkerError)
  /-- The file cannot be read. -/
  | file (error : FileError)
  deriving DecidableEq, Repr

/-- The error in words. -/
def ProcessError.message : ProcessError → String
  | marker error => "Invalid export marker: " ++ error.message
  | file error => error.message

/-- A way to read files. -/
abbrev FileReader := String → Except FileError String

/-- The grammar for a chosen export marker, or for the standard one. -/
def Grammar.choose : Option String → Except ProcessError Grammar
  | none => .ok .standard
  | some text =>
    match ExportMarker.ofString text with
    | .ok marker => .ok (.withMarker marker false)
    | .error error => .error (.marker error)

/-- Process the text of a header. -/
def processText (marker : Option String) (content : String) : Except ProcessError Header :=
  (Grammar.choose marker).map (·.extract content)

/-- Process a header file. -/
def processFile (read : FileReader) (marker : Option String) (path : String) :
    Except ProcessError Header :=
  match Grammar.choose marker with
  | .error error => .error error
  | .ok grammar =>
    match read path with
    | .error error => .error (.file error)
    | .ok content => .ok (grammar.extract content)

/-- The outcome for one file of a batch. -/
structure BatchItem where
  /-- The path as it was given. -/
  path : String
  /-- The digest of the content, empty if the file cannot be read. -/
  digest : String
  /-- The bytes of the content. -/
  size : Nat
  /-- The header, unless the file cannot be read or the header has been taken. -/
  header : Option Header
  /-- Why the file cannot be read. -/
  error : Option String
  deriving DecidableEq, Repr

namespace BatchItem

/-- The item of a file that is read. -/
def ofContent (grammar : Grammar) (path content : String) : BatchItem :=
  ⟨path, Digest.ofText content, Text.byteLength content.toList, some (grammar.extract content),
    none⟩

/-- The item of a file that cannot be read. -/
def ofError (path message : String) : BatchItem := ⟨path, "", 0, none, some message⟩

/-- Whether the file was read. -/
def isSuccess (item : BatchItem) : Bool := item.error.isNone

/-- Take the header out of an item. Nothing else of the item changes. -/
def take (item : BatchItem) : Option Header × BatchItem :=
  (item.header, { item with header := none })

/-- An item in one line, the digest cut to eight digits. -/
def description (item : BatchItem) : String :=
  match item.error with
  | some message =>
    "BatchHeaderResult(path=" ++ Text.quoted item.path ++ ", error=" ++ Text.quoted message ++ ")"
  | none =>
    "BatchHeaderResult(path=" ++ Text.quoted item.path ++ ", hash=" ++
      Text.quoted (String.ofList (item.digest.toList.take 8)) ++ ", has_header=" ++
      toString item.header.isSome ++ ")"

/-- What has been taken cannot be taken again. -/
theorem take_take (item : BatchItem) : item.take.2.take.1 = none := rfl

end BatchItem

/-- Process a file of a batch. -/
def processItem (read : FileReader) (grammar : Grammar) (path : String) : BatchItem :=
  match read path with
  | .ok content => .ofContent grammar path content
  | .error error => .ofError path error.message

/-- Process many header files, one item for each path in the order given. -/
def processFiles (read : FileReader) (marker : Option String) (paths : List String) :
    Except ProcessError (List BatchItem) :=
  (Grammar.choose marker).map fun grammar => paths.map (processItem read grammar)

/-- Take the header out of the item at a position: the header, the item as it
is afterwards, and the batch with it. -/
def takeHeader? (batch : List BatchItem) (position : Nat) :
    Option (Option Header × BatchItem × List BatchItem) :=
  batch[position]?.map fun item =>
    let taken := item.take
    (taken.1, taken.2, batch.set position taken.2)

/-- Taking a header keeps the number of items. -/
theorem length_takeHeader? {batch batch' : List BatchItem} {position : Nat}
    {header : Option Header} {item : BatchItem}
    (taken : takeHeader? batch position = some (header, item, batch')) :
    batch'.length = batch.length := by
  obtain ⟨_, _, eq⟩ := Option.map_eq_some_iff.mp taken
  cases eq
  exact List.length_set

end HeaderExports
