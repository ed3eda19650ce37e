import TagScript.Engine.Execute
import TagScript.Runner.Assertion
import TagScript.Runner.Assignment
import TagScript.Runner.Block
import TagScript.Runner.Choice
import TagScript.Runner.Command
import TagScript.Runner.Comparison
import TagScript.Runner.Document
import TagScript.Runner.Instrument
import TagScript.Runner.Procedure
import TagScript.Runner.Table

/-!
# The language

Which tags there are and what runs them.
-/

namespace TagScript

/-- **The tags of the language.** -/
def builtins : List (String × Runner) :=
  [ ("root", Runner.root),
    ("sub", Runner.sub),
    ("loop", Runner.loop),
    ("for_in", Runner.forIn),
    ("if", Runner.condition),
    ("elif", Runner.condition),
    ("then", Runner.branch),
    ("else", Runner.branch),
    ("case", Runner.selection),
    ("when", Runner.whenHolds),
    ("when_others", Runner.otherwise),
    ("assert", Runner.assertion false),
    ("assert_not", Runner.assertion true),
    ("assert_in", Runner.membership false),
    ("assert_not_in", Runner.membership true),
    ("not", Runner.negation),
    ("and", Runner.connective .and),
    ("or", Runner.connective .or),
    ("equal", Runner.comparison .equal),
    ("not_equal", Runner.comparison .notEqual),
    ("less", Runner.comparison .less),
    ("less_equal", Runner.comparison .lessEqual),
    ("greater", Runner.comparison .greater),
    ("greater_equal", Runner.comparison .greaterEqual),
    ("module", Runner.inclusion),
    ("procedure", Runner.procedure),
    ("procedure_privilege", Runner.grant),
    ("call", Runner.call),
    ("cond_call", Runner.conditionalCall),
    ("set", Runner.assign),
    ("set_int", Runner.assignTyped .integer),
    ("set_num", Runner.assignTyped .double),
    ("set_str", Runner.assignTyped .text),
    ("get", Runner.reading),
    ("return", Runner.reading),
    ("load_vars", Runner.loadVariables),
    ("load_data", Runner.loadSheet),
    ("output", Runner.output),
    ("handle_exceptions", Runner.handleExceptions),
    ("iter_make", Runner.makeIterator),
    ("iter_next", Runner.stepIterator),
    ("json_load", Runner.loadJson),
    ("json_dump", Runner.dumpJson),
    ("template", Runner.template),
    ("call_os_cmd", Runner.command) ]

/-- The runners of the language, by the names of their tags. -/
def builtinRunners : Dict Runner := Dict.ofList builtins

/-- **The runner of a tag is the one that the language lists**: no name is
listed twice. -/
theorem get?_builtinRunners {name : String} {runner : Runner} (h : (name, runner) ∈ builtins) :
    builtinRunners.get? name = some runner :=
  Dict.get?_insertAll_of_mem (by decide) h .empty

/-- Whatever runs a tag is listed. -/
theorem mem_builtins_of_get? {name : String} {runner : Runner}
    (h : builtinRunners.get? name = some runner) : (name, runner) ∈ builtins :=
  Dict.mem_of_get?_ofList h

/-- The instruments, by the names of their tags. -/
def instruments : List (String × Runner) :=
  [ ("probe", Runner.probe),
    ("boom", Runner.boom),
    ("tick", Runner.tick),
    ("branch", Runner.givenBranch) ]

namespace Engine

/-- **The engine of the language**, with a limit on the depth of tags. -/
def standard (maxDepth : Option Nat) : Engine := ⟨builtinRunners, maxDepth⟩

/-- The engine with further runners, which replace those of the same
name. -/
def extend (e : Engine) (runners : List (String × Runner)) : Engine :=
  { e with runners := e.runners.insertAll runners }

/-- Whether a tag of a name can be run. -/
def knows (e : Engine) (name : String) : Bool := e.runners.contains name

end Engine

end TagScript
