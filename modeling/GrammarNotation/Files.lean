import GrammarNotation.Text.Quoted
import GrammarNotation.Text.Utf8

/-!
# Descriptions in files

A description is kept as UTF-8 text in a file, found by a path name. Path names are resolved part
by part, so that one file answers to all the names that lead to its place.

## Main definitions

- `Place` — where a path leads, free of empty parts, `.` and `..`
- `Directory` — the files and folders with their places
- `Directory.ofList` — the directory in which given names stand for given entries
- `Directory.lookUp` — the bytes of the file with a given name
- `FileFault` — why a description cannot be had from a file
- `readDescription` — the text of a file, with every line end made a newline
-/

namespace GrammarNotation

/-! ### Places -/

/-- Where the way to a place begins. -/
inductive Base where
  /-- A folder some levels above the current one, which is itself at level 0. -/
  | above (levels : Nat)
  | root
  deriving DecidableEq

/-- A place that a path leads to. -/
structure Place where
  /-- Where the way to it begins. -/
  base : Base
  /-- The names of the entries on the way, the last one its own. -/
  way : List (List Char)
  deriving DecidableEq

/-- The parts of a path name, which slashes set apart. -/
def pathParts : List Char → List (List Char)
  | [] => [[]]
  | c :: cs => if c = '/' then [] :: pathParts cs else (pathParts cs).modifyHead (c :: ·)

namespace Place

/-- The current folder. -/
def current : Place := ⟨.above 0, []⟩

/-- The outermost folder. -/
def root : Place := ⟨.root, []⟩

/-- The place where a path name starts: a leading slash is the outermost folder. -/
def start (name : String) : Place :=
  if name.toList.head? = some '/' then root else current

/-- The folder around a place; the outermost folder is its own. -/
def parent : Place → Place
  | ⟨.above n, []⟩ => ⟨.above (n + 1), []⟩
  | ⟨.root, []⟩ => root
  | ⟨base, way⟩ => ⟨base, way.dropLast⟩

/-- The place that one part of a path leads to: an empty part and `.` stay, `..` goes out, and any
other part is the name of an entry. -/
def step (place : Place) (part : List Char) : Place :=
  if part = [] ∨ part = ['.'] then place
  else if part = ['.', '.'] then place.parent
  else ⟨place.base, place.way ++ [part]⟩

end Place

/-! ### Directories -/

/-- What stands at a place. -/
inductive Entry where
  | file (bytes : List UInt8)
  | folder

/-- Entries with their places, of which the first with a place is the one that stands there. -/
abbrev Directory := List (Place × Entry)

/-- Why the bytes of a file cannot be had. -/
inductive LookUpError where
  | missing
  /-- A part of the name that should be a folder is none. -/
  | notFolder
  | folder
  /-- The file may not be read. -/
  | denied
  /-- The name, or a part of it, is longer than names can be. -/
  | nameTooLong
  deriving DecidableEq

/-- The wording of a look-up error. -/
def LookUpError.text : LookUpError → String
  | .missing => "[Errno 2] No such file or directory"
  | .notFolder => "[Errno 20] Not a directory"
  | .folder => "[Errno 21] Is a directory"
  | .denied => "[Errno 13] Permission denied"
  | .nameTooLong => "[Errno 36] File name too long"

namespace Directory

/-- The longest name of one entry, in bytes. -/
def entryNameLimit : Nat := 255

/-- The longest path name, in bytes. -/
def pathNameLimit : Nat := 4095

/-- What stands at a place, if anything does. Every way begins at a folder. -/
def entryAt? (d : Directory) (place : Place) : Option Entry :=
  if place.way = [] then some .folder else d.lookup place

/-- The directory with one more entry, placed by the parts of its path from a place on; what the
parts pass through becomes a folder. -/
def insertFrom (d : Directory) (place : Place) (parts : List (List Char)) (entry : Entry) :
    Directory :=
  match parts with
  | [] => (place, entry) :: d
  | part :: parts => insertFrom ((place, .folder) :: d) (place.step part) parts entry

/-- The directory with an entry of the given path name. -/
def insert (d : Directory) (name : String) (entry : Entry) : Directory :=
  d.insertFrom (.start name) (pathParts name.toList) entry

/-- The directory made by inserting entries with their path names one after another. -/
def ofList (entries : List (String × Entry)) : Directory :=
  entries.foldl (fun d entry => d.insert entry.1 entry.2) []

/-- The place that the parts of a path lead to from a place. Each part is looked up in a folder. -/
def follow (d : Directory) (place : Place) : List (List Char) → Except LookUpError Place
  | [] => .ok place
  | part :: parts =>
    match d.entryAt? place with
    | some .folder =>
      if (String.ofList part).utf8ByteSize ≤ entryNameLimit then d.follow (place.step part) parts
      else .error .nameTooLong
    | some (.file _) => .error .notFolder
    | none => .error .missing

/-- The bytes of the file with the given path name. -/
def lookUp (d : Directory) (name : String) : Except LookUpError (List UInt8) :=
  if pathNameLimit < name.utf8ByteSize then .error .nameTooLong
  else
    match d.follow (.start name) (pathParts name.toList) with
    | .error e => .error e
    | .ok place =>
      match d.entryAt? place with
      | some (.file bytes) => .ok bytes
      | some .folder => .error .folder
      | none => .error .missing

end Directory

/-! ### Descriptions -/

/-- Why a description cannot be had from a file: the name of the file, if one was given, and in
words what went wrong, if that is known. -/
structure FileFault where
  name : Option String
  /-- What went wrong; empty if there is nothing to add. -/
  reason : String := ""
  deriving DecidableEq

/-- The message of a file fault. -/
def FileFault.message (f : FileFault) : String :=
  (match f.name with
    | none => "missing file name"
    | some name => "failed to open file " ++ Text.quoted name)
    ++ (if f.reason = "" then "" else ": " ++ f.reason)

/-- Why the text of a description cannot be had. -/
inductive SourceError where
  | file (f : FileFault)
  /-- The name holds the character NUL, which no file name can. -/
  | nulInName

/-- The text of the file with the given name, whose bytes `lookUp` gives. -/
def readDescription (lookUp : String → Except LookUpError (List UInt8)) (name : String) :
    Except SourceError String :=
  if name = "" then .error (.file { name := none })
  else if '\x00' ∈ name.toList then .error .nulInName
  else
    match lookUp name with
    | .error e => .error (.file ⟨name, e.text ++ ": " ++ Text.quoted name⟩)
    | .ok bytes =>
      match Text.Utf8.decode bytes with
      | .error f => .error (.file ⟨name, f.message⟩)
      | .ok cs => .ok (String.ofList (Text.normalizeNewlines cs))

end GrammarNotation
