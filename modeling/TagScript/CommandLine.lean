import TagScript.Check
import TagScript.Session

/-!
# The command line

There are two commands: one runs a script, one checks the scripts of a
directory. An option is written with its value after an equals sign or as
the next word; a next word that looks like an option is none. What cannot
be read as a command is bad usage and is answered by a status of its own,
without a line of output.
-/

namespace TagScript

/-- **A request to run a script.** -/
structure RunRequest where
  /-- The path of the script. -/
  script : String
  /-- Directories to search besides. -/
  path : List String
  /-- Assignments to global variables, as they are written. -/
  assignments : List String
  /-- Privileges, as they are written. -/
  grants : List String
  /-- The greatest depth of a tag. -/
  maxDepth : Option Nat
  deriving DecidableEq, Repr

/-- **A request.** -/
inductive Request where
  /-- Run a script. -/
  | run (request : RunRequest)
  /-- Check the scripts of a directory. -/
  | check (directory : String)
  deriving DecidableEq, Repr

namespace Request

/-- An option as it stands on the command line. -/
structure Setting where
  /-- Its name. -/
  name : String
  /-- Its value. -/
  value : String
  deriving DecidableEq, Repr

/-- The name of an option and the value written to it by an equals
sign. -/
def long? (word : String) : Option (String × Option String) :=
  match word.toList with
  | '-' :: '-' :: rest =>
    let name := String.ofList (rest.takeWhile (· != '='))
    match rest.dropWhile (· != '=') with
    | [] => some (name, none)
    | _ :: value => some (name, some (String.ofList value))
  | _ => none

/-- Whether a word looks like an option. -/
def looksLikeOption (word : String) : Bool :=
  match word.toList with
  | '-' :: _ :: _ => true
  | _ => false

/-- **The options on a command line**, in order; none if some word is no
option that is known. Two dashes end the options, and nothing may follow
them. -/
def settings? (known : List String) : List String → Option (List Setting)
  | [] => some []
  | word :: rest =>
    if word = "--" then if rest.isEmpty then some [] else none
    else
      match long? word with
      | none => none
      | some (name, attached) =>
        if !known.contains name then none
        else
          match attached, rest with
          | some value, rest => (settings? known rest).map (⟨name, value⟩ :: ·)
          | none, value :: rest =>
            if looksLikeOption value then none
            else (settings? known rest).map (⟨name, value⟩ :: ·)
          | none, [] => none

/-- The values an option is given, in order. -/
def values (settings : List Setting) (name : String) : List String :=
  (settings.filter fun s => s.name == name).map Setting.value

/-- The value of an option that may be given once; the outer `none` is
that it is given more often. -/
def single? (settings : List Setting) (name : String) : Option (Option String) :=
  match values settings name with
  | [] => some none
  | [value] => some (some value)
  | _ => none

/-- The value of an option that has to be given once and not be empty. -/
def required? (settings : List Setting) (name : String) : Option String :=
  match values settings name with
  | [value] => if value.isEmpty then none else some value
  | _ => none

/-- The depth an option sets; the outer `none` is that it sets no
number. -/
def depth? : Option String → Option (Option Nat)
  | none => some none
  | some text => (Decimal.index? text).map some

/-- The request to run a script that some options make. -/
def run? (settings : List Setting) : Option RunRequest := do
  let script ← required? settings "script"
  let maxDepth ← depth? (← single? settings "max-depth")
  let _ ← single? settings "log-level"
  let path := values settings "path"
  if path.any String.isEmpty then none
  else some ⟨script, path, values settings "set", values settings "grant", maxDepth⟩

/-- The request to check scripts that some options make. -/
def check? (settings : List Setting) : Option String := do
  let _ ← single? settings "log-level"
  required? settings "scripts-dir"

/-- **The request that a command line makes**, if it makes one. -/
def ofWords? : List String → Option Request
  | "run" :: rest =>
    (settings? ["script", "path", "set", "grant", "max-depth", "log-level"] rest).bind fun settings =>
      (run? settings).map .run
  | "check" :: rest =>
    (settings? ["scripts-dir", "log-level"] rest).bind fun settings =>
      (check? settings).map .check
  | _ => none

end Request

/-- **What a command comes to.** -/
structure Answer where
  /-- The status: zero is success, two is bad usage. -/
  status : Nat
  /-- The lines of output. -/
  lines : List String
  /-- The files afterwards. -/
  files : Files

namespace CommandLine

/-- The global variable that an assignment binds. Its value is what
follows the first equals sign, blanks included. -/
def assignment (text : String) : Except Cause (String × Value) :=
  let key := Text.trim (String.ofList (text.toList.takeWhile (· != '=')))
  match text.toList.dropWhile (· != '=') with
  | [] => .error (.badAssignment text)
  | _ :: value =>
    if key.isEmpty || Reserved.isReserved key then .error (.badAssignment text)
    else .ok (key, .str (String.ofList value))

/-- **The global variables that some assignments bind**, or the first of
them that is none. -/
def assignments : List String → Except Cause (List (String × Value))
  | [] => .ok []
  | text :: rest =>
    match assignment text with
    | .error cause => .error cause
    | .ok entry => (assignments rest).map (entry :: ·)

/-- The lines that tell of a cause. -/
def causeLines (cause : Cause) : List String :=
  ["RESULT:ERROR", "ERROR_CODE:" ++ cause.code, "ERROR_MSG_JSON:" ++ Json.quoted cause.message]

/-- The local variables that a script starts with. -/
def startingLocals (grants : List String) : Vars :=
  if grants.isEmpty then .empty else Privilege.grant .empty (grants.flatMap Text.names)

/-- The session in which a script is to run, before it is loaded. -/
def startingSession (request : RunRequest) (system : System) (files : Files) (clock : String)
    (globals : List (String × Value)) : Session where
  engine := .standard request.maxDepth
  frame :=
    { locals := startingLocals request.grants
      world := { World.ofFiles files clock system with
        globals := Dict.ofList globals
        searchPath := request.path } }

/-- The lines that tell how a script ended. -/
def outcomeLines (succeeded : Bool) (locals : Vars) : List String :=
  if succeeded then ["RESULT:OK"]
  else
    "RESULT:FAILED" ::
      ((locals.get? Reserved.debug).map fun v => "DEBUG_JSON:" ++ Json.quoted v.text).toList

/-- **Runs a script.** -/
def run (means : Nat) (system : System) (files : Files) (clock : String) (request : RunRequest) :
    Option Answer :=
  match assignments request.assignments with
  | .error cause => some ⟨1, causeLines cause, files⟩
  | .ok globals =>
    match (startingSession request system files clock globals).load request.script with
    | .error cause => some ⟨1, causeLines cause, files⟩
    | .ok (script, session) =>
      (session.execute means script 0).map fun (outcome, after) =>
        ⟨if outcome.truthy then 0 else 1, outcomeLines outcome.truthy after.frame.locals,
          after.frame.world.files⟩

/-- The lines that tell of one script. -/
def reportLines (r : ScriptReport) : List String :=
  ("SCRIPT:" ++ r.path) ::
    (r.cause.map fun cause =>
      "INVALID_SCRIPT:" ++ r.path ++ ":" ++ cause.code ++ ":" ++ Json.quoted cause.message).toList ++
    r.unknown.map fun (line, name) =>
      "UNKNOWN_TAG:" ++ r.path ++ ":" ++ String.ofList (Decimal.numeral line) ++ ":" ++ name

/-- The lines of a check. -/
def checkLines (reports : List ScriptReport) : List String :=
  reports.flatMap reportLines ++
    ["SCRIPTS:" ++ String.ofList (Decimal.numeral reports.length),
      if reports.all ScriptReport.isClean then "RESULT:OK" else "RESULT:FAILED"]

/-- **Checks the scripts of a directory.** -/
def check (files : Files) (directory : String) : Answer :=
  match (Engine.standard none).check files directory with
  | .error cause => ⟨1, causeLines cause, files⟩
  | .ok reports => ⟨if reports.all ScriptReport.isClean then 0 else 1, checkLines reports, files⟩

/-- **The answer to a command line**, unless the means are used up or a
program never ends. -/
def answer (means : Nat) (system : System) (files : Files) (clock : String) (words : List String) :
    Option Answer :=
  match Request.ofWords? words with
  | none => some ⟨2, [], files⟩
  | some (.run request) => run means system files clock request
  | some (.check directory) => some (check files directory)

end CommandLine

end TagScript
