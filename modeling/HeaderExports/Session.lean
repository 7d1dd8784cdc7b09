import HeaderExports.Json.Header
import HeaderExports.Processing

/-!
# Sessions

A session holds what later steps build on. An extraction session has a
grammar in force and a current header; a step may first change the grammar
and replace the header. A picking session has a current header and the items
of the last batch.
-/

namespace HeaderExports

/-- Why a step of an extraction session fails. -/
inductive SessionError where
  /-- The export marker is refused. -/
  | marker (error : MarkerError)
  /-- The JSON text is no header. -/
  | json (error : Json.ReadError)

/-- Where a header comes from. -/
inductive Source where
  /-- The JSON text of a header. -/
  | json (text : String)
  /-- The content of a header file. -/
  | content (text : String)
  deriving DecidableEq, Repr

/-- What the steps of an extraction session build on. -/
structure Session where
  /-- The grammar in force. -/
  grammar : Grammar
  /-- The current header. -/
  header : Header

namespace Session

/-- The standard grammar and an empty header. -/
def initial : Session := ⟨.standard, .empty⟩

/-- A change of the export marker. -/
inductive MarkerChange where
  /-- The marker stays. -/
  | keep
  /-- Back to the standard marker. -/
  | standard
  /-- Another marker. -/
  | choose (text : String)
  deriving DecidableEq, Repr

/-- The marker after a change. -/
def MarkerChange.apply (current : ExportMarker) : MarkerChange → Except MarkerError ExportMarker
  | keep => .ok current
  | standard => .ok .standard
  | choose text => ExportMarker.ofString text

/-- Change the grammar. A marker that is refused leaves everything as it is. -/
def configure (session : Session) (marker : MarkerChange) (keepsComments : Option Bool) :
    Except SessionError Session :=
  match marker.apply session.grammar.marker with
  | .error error => .error (.marker error)
  | .ok marker =>
    .ok { session with
      grammar := .withMarker marker (keepsComments.getD session.grammar.keepsComments) }

/-- Replace the current header, if a source is given. -/
def load (session : Session) : Option Source → Except SessionError Session
  | none => .ok session
  | some (.content text) => .ok { session with header := session.grammar.extract text }
  | some (.json text) =>
    match Header.ofJson text with
    | .ok header => .ok { session with header := header }
    | .error error => .error (.json error)

end Session

/-- Why a step of a picking session fails. -/
inductive PickerError where
  /-- The header cannot be processed. -/
  | process (error : ProcessError)
  /-- The JSON text is no header. -/
  | json (error : Json.ReadError)

/-- The error in words. -/
def PickerError.message : PickerError → String
  | process error => error.message
  | json error => "Invalid header JSON: " ++ error.message

/-- What the steps of a picking session build on. -/
structure Picker where
  /-- The current header. -/
  header : Header
  /-- The items of the last batch. -/
  batch : List BatchItem

namespace Picker

/-- The version of the interface. -/
def version : String := "0.1.0"

/-- An empty header and an empty batch. -/
def initial : Picker := ⟨Grammar.standard.extract "", []⟩

/-- Make the outcome of processing the current header. -/
def adopt (picker : Picker) (outcome : Except ProcessError Header) : Except PickerError Picker :=
  match outcome with
  | .ok header => .ok { picker with header := header }
  | .error error => .error (.process error)

/-- Process a text and make it the current header. -/
def processText (picker : Picker) (marker : Option String) (content : String) :
    Except PickerError Picker :=
  picker.adopt (HeaderExports.processText marker content)

/-- Process a file and make it the current header. -/
def processFile (picker : Picker) (read : FileReader) (marker : Option String) (path : String) :
    Except PickerError Picker :=
  picker.adopt (HeaderExports.processFile read marker path)

/-- Process files and make them the current batch. -/
def processFiles (picker : Picker) (read : FileReader) (marker : Option String)
    (paths : List String) : Except PickerError Picker :=
  match HeaderExports.processFiles read marker paths with
  | .ok batch => .ok { picker with batch := batch }
  | .error error => .error (.process error)

/-- Read a header from JSON and make it the current one. -/
def readJson (picker : Picker) (text : String) : Except PickerError Picker :=
  match Header.ofJson text with
  | .ok header => .ok { picker with header := header }
  | .error error => .error (.json error)

/-- Take the header out of an item of the batch. If there is one it becomes the
current header. -/
def take? (picker : Picker) (position : Nat) : Option (Option Header × BatchItem × Picker) :=
  (takeHeader? picker.batch position).map fun (header, item, batch) =>
    (header, item, ⟨header.getD picker.header, batch⟩)

end Picker

end HeaderExports
