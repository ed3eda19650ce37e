import Std.Time
import TagScript.CommandLine
import TagScript.File.System

/-!
# The program

Reads the directories that a command line speaks of, answers the command
line, and writes back what has then changed among the files. There are no
programs among the files that are read, so that no command can be started
from here.
-/

namespace TagScript.Program

/-- The place of a path, seen from the working directory. -/
def placeOf (cwd : Location) (path : String) : Location :=
  (Files.steps path).foldl Files.move (if Path.isAbsolute path then [] else cwd)

/-- The directories that a command line speaks of. -/
def directories (cwd : Location) : List String → List Location
  | words =>
    match Request.ofWords? words with
    | none => []
    | some (.check directory) => [placeOf cwd directory]
    | some (.run request) =>
      cwd :: (Script.directory request.script :: request.path).map (placeOf cwd)

/-- Reads a directory and all that is in it. -/
partial def readTree (files : Files) (place : Location) : IO Files := do
  let path ← IO.FS.realPath (Files.pathText place)
  if !(← path.isDir) then return files
  let mut files := files.makeDirectory place
  for entry in ← path.readDir do
    let inside := place ++ [entry.fileName]
    if ← entry.path.isDir then
      files ← readTree files inside
    else
      let bytes ← IO.FS.readBinFile entry.path
      files := files.put inside (.file (.ofBytes bytes.toList))
  return files

/-- Reads what a command line speaks of. -/
def readFiles (cwd : Location) (words : List String) : IO Files :=
  (directories cwd words).foldlM readTree (Files.system [] cwd)

/-- Takes away the files and directories that are gone, inner ones
first. -/
def removeFiles (before after : Files) : IO Unit := do
  let gone := before.entries.filter fun (place, _) => (after.entry? place).isNone
  for (place, entry) in gone.mergeSort fun (a, _) (b, _) => decide (b.length ≤ a.length) do
    match entry with
    | .directory => IO.FS.removeDir (Files.pathText place)
    | .file _ => IO.FS.removeFile (Files.pathText place)
    | .device => pure ()

/-- Writes the files that are not as they were before. -/
def writeFiles (before after : Files) : IO Unit := do
  let changed := after.entries.filter fun (place, entry) => before.entry? place != some entry
  for (place, entry) in changed do
    if entry == .directory then IO.FS.createDirAll (Files.pathText place)
  for (place, entry) in changed do
    match entry with
    | .directory | .device => pure ()
    | .file (.text s) => IO.FS.writeFile (Files.pathText place) s
    | .file (.binary bytes) => IO.FS.writeBinFile (Files.pathText place) ⟨bytes.toArray⟩

/-- The time, as diagnostics show it. -/
def clock : IO String := do
  let now ← Std.Time.PlainDateTime.now
  return now.format "uuuu-MM-dd HH:mm:ss"

/-- More than any run uses. -/
def means : Nat := 1000000000000000000

end TagScript.Program

open TagScript in
/-- **The program.** -/
def main (words : List String) : IO UInt32 := do
  let cwd := Files.steps (← IO.currentDir).toString
  let files ← Program.readFiles cwd words
  match CommandLine.answer Program.means .bare files (← Program.clock) words with
  | none => return 1
  | some answer =>
    for line in answer.lines do
      IO.println line
    if answer.status == 2 then
      IO.eprintln "usage: run --script FILE [options] | check --scripts-dir DIR"
    Program.removeFiles files answer.files
    Program.writeFiles files answer.files
    return UInt32.ofNat answer.status
