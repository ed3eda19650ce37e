import TagScript.File.Path
import TagScript.Text.Utf8

/-!
# Files

A store is a tree of directories and files together with the directory
that relative paths start from. A place in it is the list of the names
that lead there from the root. The entries stand in the order of their
places, so that a directory comes just before what lies in it and the
names in one directory ascend.

A file holds a text, or bytes that are none. Scripts only ever add text
to a file, and bytes that are no text do not become one by adding text
after them, so this tells all there is to tell about a file's bytes.

Beside directories and files there is the device that holds nothing and
swallows what is written to it. The store also knows which files can be
run.
-/

namespace TagScript

/-- **What a file holds.** -/
inductive Content where
  /-- A text. -/
  | text (s : String)
  /-- Bytes that are not a text. -/
  | binary (bytes : List UInt8)
  deriving DecidableEq, Repr

namespace Content

/-- What some bytes are. -/
def ofBytes (bytes : List UInt8) : Content :=
  match String.fromUTF8? ⟨bytes.toArray⟩ with
  | some s => .text s
  | none => .binary bytes

/-- The content with text added at its end. -/
def append : Content → String → Content
  | .text s, more => .text (s ++ more)
  | .binary bytes, more => .binary (bytes ++ more.toUTF8.toList)

/-- Whether there is nothing in it. -/
def isEmpty : Content → Bool
  | .text s => s.isEmpty
  | .binary bytes => bytes.isEmpty

end Content

/-- What stands at a place. -/
inductive Entry where
  /-- A directory. -/
  | directory
  /-- A file. -/
  | file (content : Content)
  /-- The device that is empty whatever is written to it. -/
  | device
  deriving DecidableEq, Repr

/-- **Why the system refuses something about a file.** -/
inductive Refusal where
  /-- There is nothing at the path. -/
  | missing
  /-- A directory is at the path. -/
  | directory
  /-- A part of the path that should be a directory is a file. -/
  | notDirectory
  /-- A name in the path, or the path itself, is too long. -/
  | nameTooLong
  /-- What is at the path may not be used so. -/
  | denied
  /-- The path holds the character that no path holds. -/
  | badPath
  /-- A command holds the character that no command holds. -/
  | badCommand
  /-- The words of a command are too long. -/
  | commandTooLong
  /-- The file is read as a text and is none. -/
  | notText
  deriving DecidableEq, Repr

/-- The system's words for a refusal. -/
def Refusal.message : Refusal → String
  | .missing => "No such file or directory (os error 2)"
  | .directory => "Is a directory (os error 21)"
  | .notDirectory => "Not a directory (os error 20)"
  | .nameTooLong => "File name too long (os error 36)"
  | .denied => "Permission denied (os error 13)"
  | .badPath => "file name contained an unexpected NUL byte"
  | .badCommand => "nul byte found in provided data"
  | .commandTooLong => "Argument list too long (os error 7)"
  | .notText => "stream did not contain valid UTF-8"

/-- A place in a store: the names from the root. -/
abbrev Location := List String

/-- **A store of files.** -/
structure Files where
  /-- The directory that relative paths start from. -/
  cwd : Location
  /-- What stands where, in the order of places; the root is not
  listed. -/
  entries : List (Location × Entry)
  /-- The files that can be run. -/
  runnable : List Location := []
  deriving Repr

namespace Files

/-- What stands at a place. -/
def entry? (fs : Files) (place : Location) : Option Entry :=
  if place.isEmpty then some .directory else fs.entries.lookup place

/-- An entry put at a place, in the place's order. -/
def insertEntry (place : Location) (entry : Entry) :
    List (Location × Entry) → List (Location × Entry)
  | [] => [(place, entry)]
  | (other, old) :: rest =>
    if other = place then (place, entry) :: rest
    else if place < other then (place, entry) :: (other, old) :: rest
    else (other, old) :: insertEntry place entry rest

/-- The store with an entry put at a place. -/
def put (fs : Files) (place : Location) (entry : Entry) : Files :=
  { fs with entries := insertEntry place entry fs.entries }

/-- The store with a directory at a place and around it. -/
def makeDirectory (fs : Files) (place : Location) : Files :=
  (List.range place.length).foldl (fun fs n => fs.put (place.take (n + 1)) .directory) fs

/-- The store with a file at a place, and directories around it. -/
def makeFile (fs : Files) (place : Location) (content : Content) : Files :=
  (fs.makeDirectory place.dropLast).put place (.file content)

/-- The store that holds nothing but its starting directory. -/
def empty (cwd : Location) : Files := ({ cwd, entries := [] } : Files).makeDirectory cwd

/-- The names of what stands right in a directory, ascending. -/
def names (fs : Files) (place : Location) : List String :=
  fs.entries.filterMap fun (other, _) =>
    if place.isPrefixOf other then
      match other.drop place.length with
      | [name] => some name
      | _ => none
    else none

/-- The text of a place as a path. -/
def pathText (place : Location) : String := "/" ++ Text.joinWith "/" place

/-! ## Following paths -/

/-- The names a path leads along. A slash at the end asks for a directory,
as a dot there would. -/
def steps (path : String) : List String :=
  let pieces := Text.split '/' path
  let named := pieces.filter fun piece => !piece.isEmpty
  if pieces.getLast? == some "" && !named.isEmpty then named ++ ["."] else named

/-- The place one step from a place. -/
def move (place : Location) (step : String) : Location :=
  if step = "." then place else if step = ".." then place.dropLast else place ++ [step]

/-- The most bytes a name in a path may have. -/
def maxNameSize : Nat := 255

/-- Where some steps lead: each but the last has to end at a directory. -/
def walk (fs : Files) : Location → List String → Except Refusal Location
  | place, [] => .ok place
  | place, step :: rest =>
    match fs.entry? place with
    | none => .error .missing
    | some (.file _) | some .device => .error .notDirectory
    | some .directory =>
      if maxNameSize < step.utf8ByteSize then .error .nameTooLong
      else walk fs (move place step) rest

/-- The most bytes a path may have. -/
def maxPathSize : Nat := 4095

/-- Whether a text holds the character that no path and no command
holds. -/
def holdsNul (s : String) : Bool := s.toList.contains (Char.ofNat 0)

/-- Why a path leads nowhere whatever there is, if it does. -/
def fault? (path : String) : Option Refusal :=
  if path.isEmpty then some .missing
  else if holdsNul path then some .badPath
  else if maxPathSize < path.utf8ByteSize then some .nameTooLong
  else none

/-- Where a path starts. -/
def base (fs : Files) (path : String) : Location := if Path.isAbsolute path then [] else fs.cwd

/-- **The place a path leads to**, whether or not anything is there. -/
def locate (fs : Files) (path : String) : Except Refusal Location :=
  match fault? path with
  | some refusal => .error refusal
  | none => fs.walk (fs.base path) (steps path)

/-- What stands where a path leads. -/
def find? (fs : Files) (path : String) : Option Entry :=
  match fs.locate path with
  | .ok place => fs.entry? place
  | .error _ => none

/-- Whether a path leads to a file. -/
def isFile (fs : Files) (path : String) : Bool :=
  match fs.find? path with
  | some (.file _) => true
  | _ => false

/-- Whether a path leads to a directory. -/
def isDirectory (fs : Files) (path : String) : Bool := fs.find? path == some .directory

/-- Whether a path leads to anything. -/
def isThere (fs : Files) (path : String) : Bool := (fs.find? path).isSome

/-! ## Reading and writing -/

/-- **What the file at a path holds.** -/
def read (fs : Files) (path : String) : Except Refusal Content :=
  match fs.locate path with
  | .error refusal => .error refusal
  | .ok place =>
    match fs.entry? place with
    | none => .error .missing
    | some .directory => .error .directory
    | some (.file content) => .ok content
    | some .device => .ok (.text "")

/-- The text of the file at a path. -/
def readText (fs : Files) (path : String) : Except Refusal String :=
  match fs.read path with
  | .error refusal => .error refusal
  | .ok (.text s) => .ok s
  | .ok (.binary _) => .error .notText

/-- **The place a path leads a writer to**: the directory has to be there,
the file need not. -/
def target (fs : Files) (path : String) : Except Refusal Location :=
  match fault? path with
  | some refusal => .error refusal
  | none =>
    let names := steps path
    let slash := path.toList.getLast? == some '/'
    let names := if slash then names.dropLast else names
    match fs.walk (fs.base path) (names.dropLast ++ ["."]) with
    | .error refusal => .error refusal
    | .ok dir =>
      match names.getLast? with
      | none => .error .directory
      | some name =>
        if name = "." ∨ name = ".." ∨ slash then .error .directory
        else if maxNameSize < name.utf8ByteSize then .error .nameTooLong
        else
          match fs.entry? (dir ++ [name]) with
          | some .directory => .error .directory
          | _ => .ok (dir ++ [name])

/-- What is done with what a file held before. -/
inductive WriteMode where
  /-- It stays in front. -/
  | append
  /-- It goes. -/
  | truncate
  deriving DecidableEq, Repr

/-- What a file at a place holds once it has been opened for writing. -/
def opened (fs : Files) (mode : WriteMode) (place : Location) : Content :=
  match mode, fs.entry? place with
  | .append, some (.file content) => content
  | _, _ => .text ""

/-- **The file at a path opened and written to**: the text is made from
what the file holds once open. -/
def write (fs : Files) (mode : WriteMode) (path : String) (text : Content → String) :
    Except Refusal Files :=
  match fs.target path with
  | .error refusal => .error refusal
  | .ok place =>
    let before := fs.opened mode place
    if fs.entry? place = some .device then .ok fs
    else .ok (fs.put place (.file (before.append (text before))))

/-- The files below a place, in the order of places, with the names that
lead to them from there. -/
def below (fs : Files) (place : Location) : List (List String × Content) :=
  fs.entries.filterMap fun (other, entry) =>
    match entry with
    | .directory | .device => none
    | .file content =>
      if place.isPrefixOf other then some (other.drop place.length, content) else none

end Files

end TagScript
