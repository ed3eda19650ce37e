import TagScript.Engine.Attribute
import TagScript.Scope.Privilege
import TagScript.Script

/-!
# Procedures, privileges and modules

A procedure is defined by a tag and called by name. The attributes of a
call are its parameters: they are read in the caller's variables and bound
in those of the callee, which are a copy unless the call says that they
are shared. No parameter binds a reserved variable. A body ends with its
first `return`, which decides what the call yields, or at the first other
tag that yields false.

A conditional call is made only if the caller has switched it on and
holds the privilege of that name. Granting privileges is itself a
privilege.
-/

namespace TagScript

namespace Runner

/-- **The definition of a procedure**, under each of its names. -/
def procedure : Runner := fun site => do
  let raw := (site.tag.attr "name").getD ""
  let names := Text.names raw
  if names.isEmpty then Run.fail (.procedureUnnamed raw)
  else do
    Run.changeWorld fun w =>
      { w with procedures := w.procedures.insertAll (names.map fun name => (name, site.tag)) }
    pure .ok

/-- Whether an attribute of a call is a parameter. -/
def isParameter (name : String) : Bool :=
  name != "name" && name != "pass_through" && !Reserved.isReserved name

/-- **The parameters of a call**, as the caller's variables make them; an
attribute without a value is a null parameter. -/
def parameters (s : Frame) (tag : Tag) : List (String × Value) :=
  (tag.attrs.filter fun entry => isParameter entry.1).map fun entry =>
    (entry.1, entry.2.elim .null fun text => .str (s.substitute text))

/-- **The body of a procedure**, as the tag of the call executes it. -/
def body (site : Site) : List Tag → Run Outcome
  | [] => pure .ok
  | child :: rest => do
    let outcome ← site.run child
    if child.name = "return" then pure outcome
    else if outcome.truthy then body site rest
    else pure .fail

/-- Calls a procedure. -/
def invoke (site : Site) (name : String) : Run Outcome := do
  match ← Run.look (·.world.procedures.get? name) with
  | none => Run.fail (.procedureUnknown name)
  | some procedure =>
    let shared ← Run.passThrough site.tag
    let given ← Run.look (parameters · site.tag)
    Run.changeWorld (·.note (.called site.tag name))
    Run.within shared do
      Run.change fun s => { s with locals := s.locals.insertAll given }
      body site procedure.tags

/-- **A call.** -/
def call : Runner := fun site => do
  let name ← Run.requireKey site.tag "name"
  invoke site name

/-- Whether a scope has a conditional call switched on. -/
def isSwitchedOn (locals : Vars) (name : String) : Bool :=
  (locals.get? ("!" ++ name)).any fun value => value.text == "1"

/-- **A conditional call**, which is passed over unless it is switched on
and privileged. -/
def conditionalCall : Runner := fun site => do
  let name ← Run.requireKey site.tag "name"
  let locals ← Run.look (·.locals)
  if isSwitchedOn locals name && Privilege.holds locals name then invoke site name
  else pure .ok

/-- **A grant of privileges.** -/
def grant : Runner := fun site => do
  if !Privilege.holds (← Run.look (·.locals)) "procedure_privilege" then
    Run.fail (.privilegeDenied "procedure_privilege")
  else do
    let names := Text.names (← Run.attrKey site.tag "name")
    if names.isEmpty then Run.fail .noPrivilegeNamed
    else do
      Run.change fun s => { s with locals := Privilege.grant s.locals names }
      pure .ok

/-- The file of a module: the one it names, or the one with the extension
of scripts. -/
def moduleFile? (w : World) (name : String) : Option String :=
  [w.resolve name, w.resolve (name ++ ".xml")].find? w.files.isFile

/-- **A module**: a script of its own, run in the variables at hand. -/
def inclusion : Runner := fun site => do
  let name ← Run.requireKey site.tag "src"
  let w ← Run.look (·.world)
  match moduleFile? w name with
  | none => Run.fail (.moduleUnknown name)
  | some path =>
    let script ← Run.ofExcept (Script.ofFile w.files path)
    if (← site.run script).truthy then pure .ok else Run.fail (.moduleFailed path)

end Runner

end TagScript
