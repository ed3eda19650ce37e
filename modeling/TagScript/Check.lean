import TagScript.Builtin
import TagScript.Script

/-!
# Checking scripts without running them

A check looks at every script in a directory and below it: whether it is
well formed, and which of its tags nothing knows how to run. Scripts are
taken in the order of a walk that visits what lies in a directory by
name.
-/

namespace TagScript

/-- The extension of scripts. -/
def scriptExtension : String := "xml"

/-- **What a check found out about a script.** -/
structure ScriptReport where
  /-- Its path from the directory that is checked. -/
  path : String
  /-- Why it cannot be read, if it cannot. -/
  cause : Option Cause
  /-- The tags that cannot be run, with their lines. -/
  unknown : List (Nat × String)

namespace ScriptReport

/-- Whether nothing is wrong with the script. -/
def isClean (r : ScriptReport) : Bool := r.cause.isNone && r.unknown.isEmpty

end ScriptReport

namespace Engine

/-- **The tags of a script that cannot be run**, in document order, each
with the line it starts on. -/
def unknownTags (e : Engine) (script : Tag) : List (Nat × String) :=
  (script.withAll.filter fun t => !e.knows t.name).map fun t => (t.span.start.line, t.name)

/-- The report on the script at a path. -/
def checkScript (e : Engine) (files : Files) (root : String) (names : List String) : ScriptReport :=
  let path := Text.joinWith "/" names
  let shown := Text.replaceChar path '\\' "/"
  match Script.ofFile files (Path.join root path) with
  | .ok script => ⟨shown, none, e.unknownTags script⟩
  | .error cause => ⟨shown, some cause, []⟩

/-- Whether a file below a directory is a script. -/
def isScript (names : List String) : Bool :=
  (names.getLast?.bind Path.extension?) == some scriptExtension

/-- **The reports on all scripts of a directory.** -/
def check (e : Engine) (files : Files) (root : String) : Except Cause (List ScriptReport) :=
  match files.locate root with
  | .error _ => .error (.notScriptsDirectory root)
  | .ok place =>
    if files.entry? place = some .directory then
      .ok (((files.below place).filter fun file => isScript file.1).map fun file =>
        e.checkScript files root file.1)
    else .error (.notScriptsDirectory root)

end Engine

end TagScript
