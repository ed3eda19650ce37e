import TagScript.File.Store

/-!
# The files of a system

Scripts run on a system that has files of its own: a few directories, the
empty device, and the programs that commands can start.
-/

namespace TagScript.Files

/-- The directories of the system. -/
def systemDirectories : List Location :=
  [["bin"], ["dev"], ["etc"], ["home"], ["lib"], ["opt"], ["proc"], ["root"], ["sbin"], ["tmp"],
   ["usr"], ["usr", "bin"], ["usr", "lib"], ["usr", "local"], ["usr", "local", "bin"],
   ["usr", "sbin"], ["var"], ["var", "tmp"]]

/-- The directories that programs lie in. -/
def programDirectories : List Location := [["bin"], ["usr", "bin"]]

/-- What the file of a program holds. -/
def programContent : Content := .binary [0x7F, 0x45, 0x4C, 0x46]

/-- **The store of a system** with some programs, whose working directory
holds nothing. -/
def system (programs : List String) (cwd : Location) : Files :=
  let places := programDirectories.flatMap fun dir => programs.map fun name => dir ++ [name]
  let files := systemDirectories.foldl makeDirectory (empty cwd)
  let files := places.foldl (fun files place => files.put place (.file programContent)) files
  { files.put ["dev", "null"] .device with runnable := places }

end TagScript.Files
