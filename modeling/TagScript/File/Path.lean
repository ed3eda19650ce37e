import TagScript.Text.Blank

/-!
# Paths

A path is a text. Its components are what stands between its slashes;
repeated and trailing slashes add none, and a single dot counts only at
the front of a path. Two paths are the same path when they have the same
components, whatever their texts.
-/

namespace TagScript.Path

/-- Whether a path starts at the root. -/
def isAbsolute (path : String) : Bool := path.toList.head? == some '/'

/-- A component of a path. -/
inductive Component where
  /-- The root. -/
  | root
  /-- The dot at the front of a path. -/
  | here
  /-- Two dots. -/
  | up
  /-- A name. -/
  | name (s : String)
  deriving DecidableEq, Repr

/-- The component of a piece between slashes, if it makes one. -/
def Component.ofPiece? (piece : String) : Option Component :=
  if piece = "" ∨ piece = "." then none
  else if piece = ".." then some .up
  else some (.name piece)

/-- **The components of a path.** -/
def components (path : String) : List Component :=
  let pieces := Text.split '/' path
  let body := pieces.filterMap Component.ofPiece?
  if isAbsolute path then .root :: body
  else if pieces.head? = some "." then .here :: body
  else body

/-- Whether two paths are the same path. -/
def same (a b : String) : Bool := components a == components b

/-- **A path continued by a relative one**; an absolute one replaces it. -/
def join (dir path : String) : String :=
  if isAbsolute path then path
  else if dir.isEmpty || dir.toList.getLast? == some '/' then dir ++ path
  else dir ++ "/" ++ path

/-- The name a path ends with, if it ends with one. -/
def fileName? (path : String) : Option String :=
  match (components path).getLast? with
  | some (.name s) => some s
  | _ => none

/-- A name cut at its last dot; a dot in front does not count. -/
def splitExtension (name : String) : String × Option String :=
  match (Text.splitChars '.' name.toList).reverse with
  | extension :: piece :: pieces =>
    let stem := ['.'].intercalate (piece :: pieces).reverse
    if stem.isEmpty then (name, none) else (String.ofList stem, some (String.ofList extension))
  | _ => (name, none)

/-- The name a path ends with, without its extension. -/
def stem (path : String) : String :=
  match fileName? path with
  | some name => (splitExtension name).1
  | none => ""

/-- The extension of the name a path ends with. -/
def extension? (path : String) : Option String := (fileName? path).bind fun name =>
  (splitExtension name).2

/-- The pieces of a path without those at its end that make no
component. -/
def trimPieces (pieces : List String) : List String :=
  (pieces.reverse.dropWhile fun piece => (Component.ofPiece? piece).isNone).reverse

/-- **The path of the directory a path lies in**, as it is written; empty
where a path is a single name, and none where it is the root or has no
component. -/
def parent? (path : String) : Option String :=
  match (components path).reverse with
  | [] | [.root] => none
  | [_] => some ""
  | [_, .here] => some "."
  | [_, .root] => some "/"
  | _ => some (Text.joinWith "/" (trimPieces (trimPieces (Text.split '/' path)).dropLast))

example : parent? "./d/../d/deep.xml" = some "./d/../d" ∧ parent? "x.xml" = some "" := by
  decide +kernel
example : parent? "/x" = some "/" ∧ parent? "d/./x/" = some "d" ∧ parent? "./x" = some "." := by
  decide +kernel
example : stem "a/t.tar.xml" = "t.tar" ∧ stem ".xml" = ".xml" := by decide +kernel
example : extension? ".xml" = none ∧ extension? "a.b.xml" = some "xml" := by decide +kernel

end TagScript.Path
