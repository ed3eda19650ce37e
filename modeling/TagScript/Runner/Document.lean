import TagScript.Engine.Access
import TagScript.Json.Reader
import TagScript.Json.Writer
import TagScript.Scope.Template
import TagScript.Value.Items

/-!
# Iterators and documents

An iterator is made from a variable and gives out one item each time it is
asked. A document – JSON or a template – comes from a variable, from an
attribute, from a file or memory handle, or from the tag's own text, the
first of these that is there; what is made of it goes to a variable, to a
file or memory handle, or is what the tag yields.
-/

namespace TagScript

namespace Runner

/-- **The making of an iterator.** -/
def makeIterator : Runner := fun site => do
  let key ← Run.requireKey site.tag "key"
  let source ← Run.requireKey site.tag "src"
  let value ← Run.read source
  match value.items? with
  | none => Run.fail (.notIterable source value.kind)
  | some items =>
    Run.setLocal key (.iter items 0)
    pure .ok

/-- **A step of an iterator**, in the layer that holds it; at its end it
yields true. -/
def stepIterator : Runner := fun site => do
  let key ← Run.requireKey site.tag "key"
  let global ← Run.look fun s => !s.locals.contains key
  let value ← Run.read key
  match value with
  | .iter items position =>
    let (item, rest) := Value.advance items position
    Run.set key rest global
    pure (.value (item.getD (.bool true)))
  | _ => Run.fail (.notIterator key value.kind)

/-! ## Where documents come from and go to -/

/-- What an attribute for a file names. -/
inductive Target where
  /-- A memory handle. -/
  | handle (name : String)
  /-- A file. -/
  | file (name : String)
  deriving DecidableEq, Repr

/-- The target of a text: a memory handle has an at sign before its
name. -/
def Target.ofText (text : String) : Target :=
  match text.toList with
  | '@' :: name => .handle (String.ofList name)
  | _ => .file text

/-- What a memory handle holds. -/
def handleText (name : String) : Run String := do
  match ← Run.look (·.world.handles.get? name) with
  | some text => pure text
  | none => Run.fail (.handleUnknown name)

/-- **The document a tag is given.** -/
def readSource (tag : Tag) : Run String := do
  let key ← Run.attrKey tag "key"
  if !key.isEmpty then
    match ← Run.read key with
    | .str text => pure text
    | value => Run.fail (.notText key value.kind)
  else
    match ← Run.attrText tag "content" with
    | some text => pure text
    | none =>
      let origin ← Run.attrKey tag "_from_file"
      if !origin.isEmpty then
        match Target.ofText origin with
        | .handle name => handleText name
        | .file name => Run.readFile name
      else if Text.isAllBlank tag.text then Run.fail (.sourceMissing tag.name)
      else pure tag.text

/-- **Delivers a document.** -/
def deliver (tag : Tag) (text : String) : Run Outcome := do
  let key ← Run.attrKey tag "_to_key"
  if !key.isEmpty then
    Run.store key (.str text) false
    pure .ok
  else do
    let goal ← Run.attrKey tag "_to_file"
    if goal.isEmpty then pure (.value (.str text))
    else
      match Target.ofText goal with
      | .handle name =>
        let before ← handleText name
        Run.changeWorld fun w => { w with handles := w.handles.insert name (before ++ text) }
        pure .ok
      | .file name =>
        let path ← Run.outputPath name
        Run.writeFile .truncate path (fun _ => text) .cannotWrite
        pure .ok

/-! ## The documents -/

/-- **The reading of JSON.** -/
def loadJson : Runner := fun site => do
  Run.checkEncoding site.tag
  match Json.parse? (← readSource site.tag) with
  | none => Run.fail (.malformedJson site.tag.name)
  | some value =>
    let key ← Run.attrKey site.tag "_to_key"
    if key.isEmpty then pure (.value value)
    else do
      Run.store key value false
      pure .ok

/-- **The writing of JSON.** -/
def dumpJson : Runner := fun site => do
  Run.checkEncoding site.tag
  let key ← Run.attrKey site.tag "key"
  let value ← if key.isEmpty then pure Value.null else Run.read key
  deliver site.tag (Json.text value)

/-- **The filling of a template.** -/
def template : Runner := fun site => do
  Run.checkEncoding site.tag
  let source ← readSource site.tag
  let filled ← Run.look fun s => Template.render s.lookup source
  deliver site.tag filled

end Runner

end TagScript
