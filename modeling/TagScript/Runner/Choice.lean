import TagScript.Runner.Block

/-!
# Choices

A condition chooses between its branches by executing an assertion: the
first one among its tags, or one that it makes from its own attributes,
named by the attribute `_assert`. A selection tries its branches in order
until one of them matches.

The assertion of a condition and the branch it chooses work on separate
copies of the local variables, unless they are shared; what the assertion
assigns does not reach the branch.
-/

namespace TagScript

/-- The names of the tags that assert something. -/
def assertionNames : List String :=
  ["assert", "assert_not", "assert_in", "assert_not_in", "not", "and", "or", "equal", "not_equal",
    "less", "less_equal", "greater", "greater_equal"]

namespace Tag

/-- Whether a tag asserts something. -/
def isAssertion (t : Tag) : Bool := assertionNames.contains t.name

/-- **The assertion that a tag makes of its own attributes**, by the name
that its attribute `_assert` gives. -/
def ownAssertion? (t : Tag) : Option Tag :=
  match t.attr "_assert" with
  | none => none
  | some name =>
    let name := Text.trim name
    if name.isEmpty then none else some { name, attrs := t.attrs, content := [], span := t.span }

/-- The last tag of a name inside a tag. -/
def lastNamed? (t : Tag) (name : String) : Option Tag :=
  (t.tags.filter fun child => child.name == name).getLast?

/-- **The assertion of a condition**: the one it makes of its own
attributes, or else the first one inside it. -/
def assertion? (t : Tag) : Option Tag := t.ownAssertion?.or (t.tags.find? isAssertion)

/-- **The branch of a condition** whose assertion held, or did not. -/
def branch? (t : Tag) (matched : Bool) : Option Tag :=
  if matched then t.lastNamed? "then" else (t.lastNamed? "elif").or (t.lastNamed? "else")

end Tag

/-- Whether a branch of a selection matched; only branches do. -/
def Outcome.matched : Outcome → Bool
  | .value _ => false
  | .branch _ matched => matched

namespace Runner

/-- Whether the assertion of a condition holds; without one it does
not. -/
def assertionHolds (site : Site) (shared : Bool) : Run Bool :=
  match site.tag.assertion? with
  | some assertion => Run.within shared do return (← site.run assertion).truthy
  | none => pure false

/-- Goes on to the branch of a condition. Without any branch the condition
yields false, and without the branch it chooses it yields true. -/
def takeBranch (site : Site) (shared matched : Bool) : Run Outcome :=
  if (site.tag.branch? true).isNone && (site.tag.branch? false).isNone then pure .fail
  else
    match site.tag.branch? matched with
    | some branch => Run.within shared (site.run branch)
    | none => pure .ok

/-- **A condition.** -/
def condition : Runner := fun site => do
  let shared ← Run.passThrough site.tag
  let matched ← assertionHolds site shared
  takeBranch site shared matched

/-- Tries the branches of a selection in order, up to one that matches. -/
def tryBranches (site : Site) : List Tag → Run Unit
  | [] => pure ()
  | child :: rest =>
    if child.name = "when" ∨ child.name = "when_others" then do
      let outcome ← site.run child
      if !outcome.truthy then Run.fail (.selectionFailed child.name)
      else if outcome.matched then pure ()
      else tryBranches site rest
    else Run.fail (.notBranch child.name)

/-- **A selection.** -/
def selection : Runner := fun site => do
  let shared ← Run.passThrough site.tag
  Run.within shared do
    tryBranches site site.tag.tags
    pure .ok

/-- Runs the body of a branch of a selection if the branch matched. -/
def branchBody (site : Site) (matched : Bool) (body : List Tag) : Run Outcome := do
  if matched then
    site.completesOr (fun child => .branchAborted site.tag.name child.name) body
  pure (.branch true matched)

/-- **A branch of a selection that matches if its assertion holds.** The
assertion is made from the branch's own attributes or is its first tag,
and is then no part of its body. -/
def whenHolds : Runner := fun site =>
  match site.tag.ownAssertion? with
  | some assertion => do
    let matched := (← site.run assertion).truthy
    branchBody site matched site.tag.tags
  | none =>
    match site.tag.tags with
    | first :: body =>
      if first.isAssertion then do
        let matched := (← site.run first).truthy
        branchBody site matched body
      else Run.fail .conditionMissing
    | [] => Run.fail .conditionMissing

/-- **A branch of a selection that always matches.** -/
def otherwise : Runner := fun site => branchBody site true site.tag.tags

end Runner

end TagScript
