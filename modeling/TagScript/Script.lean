import TagScript.Engine.World

/-!
# Scripts

A script is read from a source text or from a file. Loading the script of
a file also points the search path at it: first the directory the file
lies in, then the working directory, then the directories searched before
that are neither of these. What cannot be read changes nothing.
-/

namespace TagScript

namespace Script

/-- **The script a source text spells.** -/
def ofSource (source : String) : Except Cause Tag :=
  match Markup.parse? source with
  | some tag => .ok tag
  | none => .error .malformedScript

/-- **The script in a file**; byte order marks in front of it do not
count. -/
def ofFile (files : Files) (path : String) : Except Cause Tag :=
  match files.read path with
  | .error why => .error (.cannotReadScript path why)
  | .ok (.text source) => ofSource (Text.dropMarks source)
  | .ok (.binary bytes) =>
    match Text.Utf8.defect? bytes with
    | some (index, defect) => .error (.scriptNotText path index defect)
    | none => .error .malformedScript

/-- The directory a script lies in; a mere name lies here. -/
def directory (path : String) : String :=
  match Path.parent? path with
  | none | some "" => "."
  | some dir => dir

/-- Directories with those of a list added that are not among them yet. -/
def addMissing (kept : List String) (dirs : List String) : List String :=
  dirs.foldl (fun kept dir => if kept.any (Path.same · dir) then kept else kept ++ [dir]) kept

end Script

namespace World

/-- The path of the working directory. -/
def workingDir (w : World) : String := Files.pathText w.files.cwd

/-- **The world after a script has been loaded from a path.** -/
def pointAt (w : World) (path : String) : World :=
  let dir := Script.directory path
  { w with
    searchPath := Script.addMissing [dir, w.workingDir] w.searchPath
    globals := (w.globals.insert Reserved.scriptName (.str (Path.stem path))).insert
      Reserved.workingDir (.str dir) }

/-- **Loads the script in a file.** -/
def load (w : World) (path : String) : Except Cause (Tag × World) :=
  (Script.ofFile w.files path).map fun tag => (tag, w.pointAt path)

end World

end TagScript
