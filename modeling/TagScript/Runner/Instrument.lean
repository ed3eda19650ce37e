import TagScript.Engine.Run

/-!
# Instruments

Runners that serve to watch scripts: one notes what variables there are,
one faults as it is told to, one counts how often it is asked and fails
from some count on, and one yields the outcome of a branch as it is told
to. They take their attributes as they are written, without variables put
in.
-/

namespace TagScript.Runner

/-- **A probe**: notes the variables it names, or all local ones. -/
def probe : Runner := fun site => do
  Run.change fun s =>
    let seen := match site.tag.attr "keys" with
      | some keys => Sight.variables ((Text.split ',' keys).map fun key => s.lookup (Text.trim key))
      | none => .scope s.locals
    let note : Observation := ⟨site.tag.attr "id", site.depth, seen⟩
    { s with world := { s.world with observations := note :: s.world.observations } }
  pure .ok

/-- **A fault** with the code and the message it is given. -/
def boom : Runner := fun site =>
  Run.fail (.other ((site.tag.attr "code").getD "TEST_BOOM") ((site.tag.attr "message").getD "boom"))

/-- **A counter**: adds one to the count of its name, and yields whether the
count is below a limit. -/
def tick : Runner := fun site => do
  let name := (site.tag.attr "id").getD ""
  let limit := ((site.tag.attr "limit").bind Decimal.int64?).elim 3 Int64.toInt
  let count := (← Run.look (·.world.counters.get? name)).getD 0 + 1
  Run.changeWorld fun w => { w with counters := w.counters.insert name count }
  pure (.ofBool ((count : Int) < limit))

/-- **The outcome of a branch**, as it is given. -/
def givenBranch : Runner := fun site =>
  pure (.branch (site.tag.attr "success" == some "true") (site.tag.attr "matched" == some "true"))

end TagScript.Runner
