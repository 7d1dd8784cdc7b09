import HeaderExports.Text.Span

/-!
# Reading header files

A directory holds files and folders under relative names. A path is followed
from the directory component by component, and reading fails with the cause
that is met first. A file is read as text, so its bytes must be UTF-8.
-/

namespace HeaderExports

/-- What a directory holds under a name. -/
inductive Entry where
  /-- A file with its bytes. -/
  | file (bytes : List UInt8)
  /-- A folder. -/
  | folder
  deriving DecidableEq, Repr

/-- Why a path cannot be read. -/
inductive FileCause where
  /-- Nothing has this name. -/
  | notFound
  /-- A component in front of the last one is a file. -/
  | notDirectory
  /-- The path leads to a folder. -/
  | isDirectory
  /-- The path or a component of it is too long. -/
  | nameTooLong
  /-- The path holds a character that ends names. -/
  | nulInName
  /-- The bytes of the file are no text. -/
  | notText
  /-- Any other cause, in the words of the system. -/
  | other (words : String)
  deriving DecidableEq, Repr

/-- The cause in words. -/
def FileCause.message : FileCause → String
  | notFound => "No such file or directory (os error 2)"
  | notDirectory => "Not a directory (os error 20)"
  | isDirectory => "Is a directory (os error 21)"
  | nameTooLong => "File name too long (os error 36)"
  | nulInName => "file name contained an unexpected NUL byte"
  | notText => "stream did not contain valid UTF-8"
  | other words => words

/-- A header file that cannot be read. -/
structure FileError where
  /-- The path as it was given. -/
  path : String
  /-- Why it cannot be read. -/
  cause : FileCause
  deriving DecidableEq, Repr

/-- The error in words. -/
def FileError.message (error : FileError) : String :=
  "Failed to read header file: " ++ error.path ++ ": " ++ error.cause.message

/-- The components of a path. Two separators in a row count as one. -/
def components (path : String) : List String :=
  ((path.toList.splitOn '/').map String.ofList).filter (! ·.isEmpty)

/-- A place on the way along a path. -/
inductive Place where
  /-- Inside the directory, under components that are listed from the last one
  to the first. -/
  | inside (name : List String)
  /-- Above the directory, where nothing is known but folders upwards. -/
  | above
  /-- Under a name that is not known. -/
  | nowhere
  deriving DecidableEq, Repr

namespace Place

/-- The directory itself. -/
def top : Place := .inside []

/-- The place above another one. -/
def parent : Place → Place
  | inside (_ :: outer) => inside outer
  | inside [] => above
  | above => above
  | nowhere => nowhere

/-- The place that a component leads to. -/
def enter (place : Place) (component : String) : Place :=
  if component = "." then place
  else if component = ".." then place.parent
  else
    match place with
    | inside name => inside (component :: name)
    | _ => nowhere

end Place

/-- Files and folders at their places. The way to an entry leads through folders
that are entries too. -/
structure Directory where
  /-- The entries. -/
  entries : List (Place × Entry)
  deriving DecidableEq, Repr

namespace Directory

/-- An entry with the folders on the way to it, from a place on. -/
def entriesFrom (entry : Entry) : Place → List String → List (Place × Entry)
  | place, [] => [(place, entry)]
  | place, component :: rest =>
    (place, .folder) :: entriesFrom entry (place.enter component) rest

/-- A directory with entries under relative names. Of two entries at one place
the later one stays. -/
def ofList (entries : List (String × Entry)) : Directory :=
  ⟨(.top, .folder) ::
    entries.reverse.flatMap fun (name, entry) => entriesFrom entry .top (components name)⟩

/-- What stands at a place. -/
def lookup? (directory : Directory) (place : Place) : Option Entry :=
  if place = .above then some .folder
  else (directory.entries.find? (·.1 = place)).map (·.2)

/-- The bytes that a component may have. -/
def componentLimit : Nat := 255

/-- The bytes that a path may have. -/
def pathLimit : Nat := 4095

/-- The bytes of a text. -/
def byteCount (text : String) : Nat := Text.byteLength text.toList

/-- Follow components from a place. Only a folder leads on. -/
def follow (directory : Directory) : Place → List String → Except FileCause Entry
  | place, path =>
    match directory.lookup? place, path with
    | none, _ => .error .notFound
    | some entry, [] => .ok entry
    | some (.file _), _ :: _ => .error .notDirectory
    | some .folder, component :: rest =>
      if componentLimit < byteCount component then .error .nameTooLong
      else follow directory (place.enter component) rest

/-- The text of the file under a path. -/
def read (directory : Directory) (path : String) : Except FileError String :=
  let refuse (cause : FileCause) : Except FileError String := .error ⟨path, cause⟩
  if path.toList.contains '\x00' then refuse .nulInName
  else if path.isEmpty then refuse .notFound
  else if pathLimit < byteCount path then refuse .nameTooLong
  else
    let last := if path.toList.getLast? = some '/' then ["."] else []
    match directory.follow .top (components path ++ last) with
    | .error cause => refuse cause
    | .ok .folder => refuse .isDirectory
    | .ok (.file bytes) =>
      match String.fromUTF8? ⟨bytes.toArray⟩ with
      | some text => .ok text
      | none => refuse .notText

/-- An error names the path that was asked for. -/
theorem path_of_read_error {directory : Directory} {path : String} {error : FileError}
    (failed : directory.read path = .error error) : error.path = path := by
  simp only [read] at failed
  repeat' split at failed
  all_goals first
    | (cases failed; rfl)
    | cases failed

end Directory

end HeaderExports
