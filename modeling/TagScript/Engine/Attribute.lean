import TagScript.Engine.Run
import TagScript.Text.Blank

/-!
# Reading attributes

Attributes are read with the variables put in place of their markers. A
name or key is read without the blanks around it, and a switch is read as
one of the usual words for yes and no.
-/

namespace TagScript

namespace Frame

/-- **The text of an attribute**, with variables put in. -/
def attrText (s : Frame) (tag : Tag) (name : String) : Option String :=
  (tag.attr name).map s.substitute

/-- An attribute without the blanks around it; empty if it is absent. -/
def attrKey (s : Frame) (tag : Tag) (name : String) : String :=
  ((s.attrText tag name).map Text.trim).getD ""

end Frame

/-- The words for yes and no. -/
def switch? (text : String) : Option Bool :=
  if ["true", "1", "yes", "on"].contains text then some true
  else if ["false", "0", "no", "off", ""].contains text then some false
  else none

namespace Run

/-- The text of an attribute. -/
def attrText (tag : Tag) (name : String) : Run (Option String) := look (·.attrText tag name)

/-- An attribute without the blanks around it; empty if it is absent. -/
def attrKey (tag : Tag) (name : String) : Run String := look (·.attrKey tag name)

/-- An attribute that has to be there and not be blank. -/
def requireKey (tag : Tag) (name : String) : Run String := do
  let key ← attrKey tag name
  if key.isEmpty then fail (.attributeMissing tag.name name) else pure key

/-- **A switch**, with what it is if it is absent. -/
def attrSwitch (tag : Tag) (name : String) (default : Bool) : Run Bool := do
  match ← attrText tag name with
  | none => pure default
  | some text =>
    let word := Text.lower (Text.trim text)
    match switch? word with
    | some b => pure b
    | none => fail (.notBoolean tag.name name word)

/-- Whether a block works on the local variables themselves. -/
def passThrough (tag : Tag) : Run Bool := attrSwitch tag "pass_through" false

end Run

end TagScript
