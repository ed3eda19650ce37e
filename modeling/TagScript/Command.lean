import TagScript.File.Store

/-!
# Programs

A script starts a program of the system with arguments. The program is
looked for at a path, or under its name in some directories one after the
other, and it works in a directory of its own. Whether it can be started is
seen from the files: `start` is refused if there is no such program or no
such directory, or if the words of the command cannot be those of any.

What a program then does is not seen from here. It may change files, and it
ends with success or without, or it never ends. A `System` says which, and
all that is said about scripts is said for every system.
-/

namespace TagScript

/-- **How a program has ended.** -/
structure Exit where
  /-- The files as it has left them. -/
  files : Files
  /-- Whether it has succeeded. -/
  succeeded : Bool

/-- **The system that programs run on.** Programs need not do the same
whenever they are started, so it is told how many have been started
before. -/
structure System where
  /-- The directories in which programs are looked for, in this order. -/
  programDirs : List String
  /-- What becomes of a program, given how many have been started before it,
  the files with the directory that it works in, its name and its arguments;
  nothing if it never ends. -/
  run : Nat → Files → String → List String → Option Exit

namespace System

/-- A system on which no program is found by its name, and whatever is
started succeeds at once. -/
def bare : System := ⟨[], fun _ files _ _ => some ⟨files, true⟩⟩

/-- **A system on which every program ends.** -/
def Ends (system : System) : Prop :=
  ∀ before files program arguments, (system.run before files program arguments).isSome

theorem ends_bare : bare.Ends := fun _ _ _ _ => rfl

end System

namespace Command

/-- The most bytes that one word of a command may have. -/
def maxWordSize : Nat := 131071

/-- The most bytes that the words of a command may have together, each with
its end and its address. -/
def maxCommandSize : Nat := 2097152

/-- Whether the words of a command are too long. -/
def isTooLong (words : List String) : Bool :=
  words.any (fun word => maxWordSize < word.utf8ByteSize) ||
    maxCommandSize < words.foldl (fun size word => size + word.utf8ByteSize + 9) 0

/-- **The paths at which a program can be**: a name with a slash is one. -/
def candidates (dirs : List String) (program : String) : List String :=
  if program.toList.contains '/' then [program]
  else dirs.map fun dir => if dir.isEmpty then program else dir ++ "/" ++ program

/-- Whether what is at a path can be run, if there is anything. -/
def runs? (files : Files) (path : String) : Option Bool :=
  match files.locate path with
  | .error _ => none
  | .ok place =>
    match files.entry? place with
    | none => none
    | some (.file _) => some (files.runnable.contains place)
    | some _ => some false

/-- **Why there is no program of a name**, if there is none: the way to its
path may break off, its name may be too long to be looked for, and what has
been found may not be one to run. -/
def lack? (files : Files) (dirs : List String) (program : String) : Option Refusal :=
  let found := (candidates dirs program).filterMap (runs? files)
  let otherwise : Refusal := if found.isEmpty then .missing else .denied
  if found.contains true then none
  else if program.toList.contains '/' then
    match files.locate program with
    | .error why => some why
    | .ok _ => some otherwise
  else if Files.maxNameSize < program.utf8ByteSize then some .nameTooLong
  else some otherwise

/-- **Starts a program in a directory**, unless that is refused: the files
as the program finds them. -/
def start (files : Files) (dirs : List String) (dir program : String) (arguments : List String) :
    Except Refusal Files :=
  if (dir :: program :: arguments).any Files.holdsNul then .error .badCommand
  else
    match files.locate dir with
    | .error why => .error why
    | .ok place =>
      match files.entry? place with
      | none => .error .missing
      | some (.file _) | some .device => .error .notDirectory
      | some .directory =>
        let inside := { files with cwd := place }
        match lack? inside dirs program with
        | some why => .error why
        | none =>
          if isTooLong (program :: arguments) then .error .commandTooLong else .ok inside

end Command

end TagScript
