import TagScript.Engine.Attribute
import TagScript.Value.Text

/-!
# Assertions

An assertion holds a value against what is expected of it. If nothing in
particular is expected, the value has to be something: neither null nor
zero nor the empty text nor the word for false. Otherwise numbers and
truth values are compared by their texts, truth values without regard to
case, and everything else structurally.
-/

namespace TagScript

namespace Value

/-- **Whether a value is something.** -/
def isSomething : Value → Bool
  | .null => false
  | .int n => n != 0
  | .float x => !x.isZero
  | .str s => !s.isEmpty && !Text.sameIgnoringCase s "false"
  | v => !Text.sameIgnoringCase v.text "false"

/-- **Whether a value is what is expected of it**; null expects nothing in
particular. -/
def meets (actual expected : Value) : Bool :=
  if expected.isNull then actual.isSomething
  else
    match actual with
    | .null => false
    | .int _ | .float _ => actual.text == expected.text
    | .bool _ => Text.sameIgnoringCase actual.text expected.text
    | _ => actual.beq expected

end Value

namespace Runner

/-- Executes tags in order up to the first whose value fails a test, and
tells whether there was none. -/
def allPass (site : Site) (test : Value → Bool) : List Tag → Run Bool
  | [] => pure true
  | child :: rest => do
    if test (← site.run child).toValue then allPass site test rest else pure false

/-- **The assertion that a variable, or every tag inside, has a value.**
Negated, it holds exactly where it would not. -/
def assertion (negated : Bool) : Runner := fun site => do
  let key ← Run.attrKey site.tag "key"
  let expected := ((← Run.attrText site.tag "value").map Value.str).getD .null
  if !key.isEmpty then
    let actual ← Run.read key
    pure (.ofBool (actual.meets expected != negated))
  else if site.tag.tags.isEmpty then Run.fail (.nothingAsserted site.tag.name)
  else do
    let all ← allPass site (·.meets expected) site.tag.tags
    pure (.ofBool (all != negated))

/-- **The assertion that a variable has one of the values of the tags
inside.** The variable is read before any of them is executed, and none
is executed after one that fits. -/
def membership (negated : Bool) : Runner := fun site => do
  let key ← Run.requireKey site.tag "key"
  if site.tag.tags.isEmpty then Run.fail (.noCandidates site.tag.name)
  else do
    let actual ← Run.read key
    let none ← allPass site (fun candidate => !actual.meets candidate) site.tag.tags
    pure (.ofBool (none == negated))

/-- **Negation** of the first tag inside. -/
def negation : Runner := fun site =>
  match site.tag.firstTag? with
  | some child => do return .ofBool (!(← site.run child).truthy)
  | none => Run.fail .nothingNegated

end Runner

end TagScript
