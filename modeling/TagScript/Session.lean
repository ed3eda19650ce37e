import TagScript.Builtin
import TagScript.Script

/-!
# Sessions

A session keeps an engine, one set of local variables and the world from
one request to the next. Requests that execute tags are given means and
have no result if the means do not suffice.
-/

namespace TagScript

/-- **A session.** -/
structure Session where
  /-- The engine. -/
  engine : Engine
  /-- The local variables and the world. -/
  frame : Frame

namespace Session

/-- The session with its world changed. -/
def mapWorld (s : Session) (f : World → World) : Session :=
  { s with frame := { s.frame with world := f s.frame.world } }

/-- The session with its local variables changed. -/
def mapLocals (s : Session) (f : Vars → Vars) : Session :=
  { s with frame := { s.frame with locals := f s.frame.locals } }

/-- The session with nothing in its journal and nothing observed yet. -/
def refresh (s : Session) : Session :=
  s.mapWorld fun w => { w with journal := [], observations := [] }

/-- **Executes a tag**, as if inside a tag of some depth. -/
def execute (s : Session) (means : Nat) (tag : Tag) (outer : Depth) : Option (Outcome × Session) :=
  match s.engine.execute means tag outer s.frame with
  | .done outcome frame => some (outcome, { s with frame })
  | .failed _ frame => some (.fail, { s with frame })
  | .exhausted _ => none

/-- **Executes a tag in local variables of its own**, which start out
empty; those of the session stay as they are. -/
def executeFresh (s : Session) (means : Nat) (tag : Tag) : Option (Outcome × Session) :=
  ((s.mapLocals fun _ => .empty).execute means tag 0).map fun (outcome, t) =>
    (outcome, t.mapLocals fun _ => s.frame.locals)

/-- **Loads a script from a file.** -/
def load (s : Session) (path : String) : Except Cause (Tag × Session) :=
  (s.frame.world.load path).map fun (tag, world) => (tag, s.mapWorld fun _ => world)

/-- An assignment from outside. -/
def set (s : Session) (key : String) (value : Value) (global : Bool) : Session :=
  { s with frame := s.frame.set key value global }

/-- **An assignment on behalf of a script.** -/
def store (s : Session) (key : String) (value : Value) (global : Bool) : Except Cause Session :=
  match Run.store key value global s.frame with
  | .done _ frame => .ok { s with frame }
  | .failed fault _ => .error fault.cause
  | .exhausted _ => .ok s

/-- Grants privileges to the local variables. -/
def grant (s : Session) (names : List String) : Session :=
  s.mapLocals fun locals => Privilege.grant locals names

/-- A fault that the journal tells of: the tag, the fault, and the depth
that the local variables gave then. -/
structure FaultEntry where
  /-- The tag that faulted. -/
  tag : Tag
  /-- The fault, charged to a place. -/
  fault : Fault
  /-- The depth by the local variables. -/
  depth : Option Value

/-- **The faults in the journal**, in the order in which they arose. -/
def faults (s : Session) : List FaultEntry :=
  s.frame.world.journal.reverse.filterMap fun
    | .faulted tag _ fault locals _ => some ⟨tag, fault, locals.get? Reserved.depth⟩
    | _ => none

/-- What probes have observed, in order. -/
def observations (s : Session) : List Observation := s.frame.world.observations.reverse

/-- The files below the working directory that are new, or other than they
were in another store. -/
def changedFiles (s : Session) (before : Files) : List (List String × Content) :=
  let old := before.below before.cwd
  (s.frame.world.files.below before.cwd).filter fun file => !old.contains file

end Session

end TagScript
