import TagScript.Command
import TagScript.Fault
import TagScript.File.Lock
import TagScript.Scope.Lookup
import TagScript.Scope.Reserved
import TagScript.Table.Record

/-!
# What a run works on

A running tag sees a `Frame`: its own local variables, and the `World`
that all tags of a run share – global variables, procedures, files,
memory handles, locks, the names of the tags being executed. The world
also keeps a journal of what the run has done, which nothing in a script
can read; it is there to speak about runs. Whoever starts a run says which
events the journal is to keep: all of them tell the run tag by tag, and
the faults alone are what a host reports.

Three things in the world are not the script's doing. The clock stands
still, so that a run is a function of where it starts. The system says what
becomes of the programs that are started. The instruments are for runners
that watch a script from outside.
-/

namespace TagScript

/-- **What executing a tag yields.** A branch of a selection yields more
than a value: it tells a branch that ran and did not match from one that
matched. -/
inductive Outcome where
  /-- A value. -/
  | value (v : Value)
  /-- How a branch of a selection ended. -/
  | branch (success matched : Bool)
  deriving Repr

namespace Outcome

/-- An outcome that is a truth value. -/
def ofBool (b : Bool) : Outcome := .value (.bool b)

/-- Success. -/
def ok : Outcome := ofBool true

/-- Failure. -/
def fail : Outcome := ofBool false

/-- Whether the tag around goes on. -/
def truthy : Outcome → Bool
  | .value v => v.truthy
  | .branch success _ => success

/-- The outcome as a value. -/
def toValue : Outcome → Value
  | .value v => v
  | .branch success _ => .bool success

@[simp] theorem truthy_ofBool (b : Bool) : (ofBool b).truthy = b := rfl

end Outcome

/-- **How deep a tag lies** in the tags being executed. A host may start a
run at any depth that is a word of 64 bits; words of the upper half count
as depths below zero, so that the depth after the last word is zero. -/
abbrev Depth := Int

namespace Depth

/-- The depth that a word stands for. -/
def ofWord (n : UInt64) : Depth := n.toInt64.toInt

/-- The number that a depth is shown and limited by. -/
def number (d : Depth) : Nat := if d < 0 then (d + 0x10000000000000000).toNat else d.toNat

theorem number_of_nonneg {d : Depth} (h : 0 ≤ d) : d.number = d.toNat := by
  rw [number, if_neg (Int.not_lt.2 h)]

end Depth

/-- **Something a run did.** -/
inductive Event where
  /-- The execution of a tag began. -/
  | entered (tag : Tag) (depth : Depth)
  /-- The runner of a tag was called, with these names of tags being
  executed, the innermost first, and these variables. -/
  | invoked (tag : Tag) (depth : Depth) (trace : List String) (locals globals : Vars)
  /-- A tag faulted, in these variables. -/
  | faulted (tag : Tag) (depth : Depth) (fault : Fault) (locals globals : Vars)
  /-- A tag went on to the body of a procedure. -/
  | called (tag : Tag) (procedure : String)
  /-- A command was started. -/
  | started (command : String) (arguments : List String)
  /-- The execution of a tag ended. -/
  | left (tag : Tag) (depth : Depth) (outcome : Outcome)

/-- Whether an event is a fault. -/
def Event.isFault : Event → Bool
  | .faulted .. => true
  | _ => false

/-- What a probe saw. -/
inductive Sight where
  /-- The variables it asked for, in its order. -/
  | variables (values : List (Option Value))
  /-- All local variables. -/
  | scope (locals : Vars)

/-- A note taken by a probe. -/
structure Observation where
  /-- What the probe is called. -/
  id : Option String
  /-- The depth it was run at. -/
  depth : Depth
  /-- What it saw. -/
  seen : Sight

/-- **The world of a run.** -/
structure World where
  /-- The global variables. -/
  globals : Vars
  /-- The procedures, each by the tag that defines it. -/
  procedures : Dict Tag
  /-- Where relative file names are looked for, in this order. -/
  searchPath : List String
  /-- The files. -/
  files : Files
  /-- The memory handles. -/
  handles : Dict String
  /-- The locks on output files. -/
  locks : Locks
  /-- The names of the tags being executed, the innermost first. -/
  trace : List String
  /-- The time, as diagnostics show it. -/
  clock : String
  /-- The system that programs run on. -/
  system : System
  /-- How many programs have been started. -/
  starts : Nat
  /-- How many exception handlers have been installed. -/
  handlers : Nat
  /-- Which events the journal keeps. -/
  keeps : Event → Bool
  /-- What the run has done, the latest first, as far as it is kept. -/
  journal : List Event
  /-- What probes have seen, the latest first. -/
  observations : List Observation
  /-- How often each counter has been asked. -/
  counters : Dict Nat

namespace World

/-- A world with these files and nothing else, whose journal keeps the
faults. -/
def ofFiles (files : Files) (clock : String) (system : System) : World where
  globals := .empty
  procedures := .empty
  searchPath := []
  files := files
  handles := .empty
  locks := .empty
  trace := []
  clock := clock
  system := system
  starts := 0
  handlers := 0
  keeps := Event.isFault
  journal := []
  observations := []
  counters := .empty

/-- The world with one more event, which its journal keeps or not. -/
def note (w : World) (event : Event) : World :=
  if w.keeps event then { w with journal := event :: w.journal } else w

/-- The directory that output goes to and commands run in. -/
def primaryDir (w : World) : String := w.searchPath.head?.getD "."

/-- **The path a file name stands for**: the first file of that name along
the search path, or else the name itself. -/
def resolve (w : World) (name : String) : String :=
  if Path.isAbsolute name then name
  else ((w.searchPath.map (Path.join · name)).find? w.files.isFile).getD name

/-- **What becomes of a program** that is started with arguments: it is
refused, or it ends at some time, or it never does. Whatever it has done to
the files, the working directory is not its to change. -/
def launch (w : World) (program : String) (arguments : List String) :
    Except Refusal (Option Exit) :=
  (Command.start w.files w.system.programDirs w.primaryDir program arguments).map fun inside =>
    (w.system.run w.starts inside program arguments).map fun exit =>
      { exit with files := { exit.files with cwd := w.files.cwd } }

/-- The world once a program has been started. -/
def start (w : World) (program : String) (arguments : List String) : World :=
  { w.note (.started program arguments) with starts := w.starts + 1 }

/-- The world once a path's lock has been asked for. -/
def lock (w : World) (path : String) : World := { w with locks := w.locks.ask path }

/-- **The world after an exception handler has recorded a fault**, given
the values of the variables there: a row of the handler's columns is added
to its file, after a row of headings if the file was not there. If the
file cannot be written, nothing happens. -/
def record (w : World) (h : Handler) (value : String → Value) : World :=
  let w := w.lock h.path
  let row := h.columns.map fun column => (value column).text
  let rows := if w.files.isThere h.path then [row] else [h.columns, row]
  match w.files.write .append h.path fun _ => Table.writeRecords .crlf rows with
  | .ok files => { w with files }
  | .error _ => w

/-! ## Small laws -/

/-- An event is put in front of the journal or not kept at all. -/
theorem journal_note (w : World) (event : Event) :
    (w.note event).journal = event :: w.journal ∨ (w.note event).journal = w.journal := by
  unfold note
  split
  · exact .inl rfl
  · exact .inr rfl

/-- Noting an event changes the journal only. -/
theorem globals_note (w : World) (event : Event) : (w.note event).globals = w.globals := by
  unfold note
  split
  · rfl
  · rfl

/-- A handler changes files and locks and nothing else. -/
theorem record_eq (w : World) (h : Handler) (value : String → Value) :
    ∃ files locks, w.record h value = { w with files, locks } := by
  unfold record
  dsimp only
  split
  · exact ⟨_, _, rfl⟩
  · exact ⟨_, _, rfl⟩

end World

/-- **What a running tag sees.** -/
structure Frame where
  /-- Its local variables. -/
  locals : Vars
  /-- What it shares with all other tags. -/
  world : World

namespace Frame

/-- The value of a variable. -/
def lookup (s : Frame) (key : String) : Option Value :=
  Scope.lookup s.locals s.world.globals key

/-- The value of a variable, null if it is absent. -/
def read (s : Frame) (key : String) : Value := (s.lookup key).getD .null

/-- A text with the variables in place of their markers. -/
def substitute (s : Frame) (text : String) : String :=
  Scope.substitute s.locals s.world.globals text

/-- All variables that are visible. -/
def combined (s : Frame) : Vars := Scope.combined s.locals s.world.globals

/-- The frame with a local variable bound. -/
def setLocal (s : Frame) (key : String) (value : Value) : Frame :=
  { s with locals := s.locals.insert key value }

/-- The frame with a global variable bound. -/
def setGlobal (s : Frame) (key : String) (value : Value) : Frame :=
  { s with world := { s.world with globals := s.world.globals.insert key value } }

/-- The frame with a variable bound in one of the layers. -/
def set (s : Frame) (key : String) (value : Value) (global : Bool) : Frame :=
  if global then s.setGlobal key value else s.setLocal key value

end Frame

end TagScript
