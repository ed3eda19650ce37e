import TagScript.Engine.Attribute
import TagScript.Value.Items

/-!
# Blocks

A block executes the tags inside it in document order and stops at the
first one that yields false. What becomes of the block then is up to its
kind: a script and a branch fault, a group and a repetition end well.

A block works on a copy of the local variables unless its attribute
`pass_through` says that it shares them; a script always copies and a
branch always shares.
-/

namespace TagScript

namespace Site

/-- **Executes tags in order up to the first that yields false**, and tells
which one that was; none if all of them yield true. -/
def firstFalsy (site : Site) : List Tag → Run (Option Tag)
  | [] => pure none
  | child :: rest => do
    if (← site.run child).truthy then site.firstFalsy rest else pure (some child)

/-- Executes the tags inside the tag at hand, and tells whether all of them
yield true. -/
def completes (site : Site) : Run Bool := do
  return (← site.firstFalsy site.tag.tags).isNone

/-- Executes tags in order, of which none may yield false. -/
def completesOr (site : Site) (cause : Tag → Cause) (tags : List Tag) : Run Unit := do
  match ← site.firstFalsy tags with
  | some child => Run.fail (cause child)
  | none => pure ()

end Site

namespace Runner

/-- **A script**, which is aborted at the first tag that yields false. -/
def root : Runner := fun site => Run.isolated do
  site.completesOr (fun child => .scriptAborted child.name) site.tag.tags
  pure .ok

/-- **A group of tags**, which ends well wherever it ends. -/
def sub : Runner := fun site => do
  let shared ← Run.passThrough site.tag
  Run.within shared do
    let _ ← site.completes
    pure .ok

/-- **A repetition**, round after round until a tag yields false. -/
def loop : Runner := fun site => do
  let shared ← Run.passThrough site.tag
  Run.within shared do
    Run.repeatWhile site.completes site.rounds
    pure .ok

/-- **An iteration** over the entries of a variable, up to the round in
which a tag yields false. -/
def forIn : Runner := fun site => do
  let shared ← Run.passThrough site.tag
  if site.tag.hasAttr "key_eval" then Run.fail .computedKey
  let key ← Run.requireKey site.tag "key"
  let source ← Run.read key
  match source.entries? with
  | none => Run.fail (.notIterable key source.kind)
  | some entries =>
    Run.within shared do
      Run.forEach (fun entry => do
        Run.setLocal Reserved.forInKey entry.1
        Run.setLocal Reserved.forInValue entry.2
        site.completes) entries
      pure .ok

/-- **A branch of a condition**, in the variables of the condition. -/
def branch : Runner := fun site => do
  site.completesOr (fun child => .branchAborted site.tag.name child.name) site.tag.tags
  pure .ok

end Runner

end TagScript
