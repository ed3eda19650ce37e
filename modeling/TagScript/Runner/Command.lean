import TagScript.Engine.Attribute
import TagScript.Scope.Privilege

/-!
# Commands

A script that holds the privilege may run a program of the system. The
program runs in the first directory of the search path, its arguments are
the words of an attribute, and the tag yields true exactly if the program
succeeds. Until the program ends the tag waits, for ever if need be.
-/

namespace TagScript.Runner

/-- **A command.** Without a program there is nothing to run, which is a
failure but no fault. -/
def command : Runner := fun site => do
  if !Privilege.holds (← Run.look (·.locals)) "call_os_cmd" then
    Run.fail (.privilegeDenied "call_os_cmd")
  else do
    let program ← Run.attrKey site.tag "cmd"
    if program.isEmpty then pure .fail
    else do
      let arguments := Text.words ((← Run.attrText site.tag "args").getD "")
      match (← Run.look (·.world)).launch program arguments with
      | .error why => Run.fail (.cannotStart program why)
      | .ok exit? => do
        Run.changeWorld (·.start program arguments)
        match exit? with
        | none => Run.exhausted
        | some exit => do
          Run.changeWorld fun w => { w with files := exit.files }
          pure (.ofBool exit.succeeded)

end TagScript.Runner
