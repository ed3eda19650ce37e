import TagScript.Proofs.Leaf
import TagScript.Proofs.Registry
import TagScript.Proofs.Sequence
import TagScript.Proofs.Storage

/-!
# Attributes are assigned at once

A call binds its parameters, and a typed assignment its variables, one after the
other, and the text of an attribute may refer to any of them. But all texts are
read before the first variable is bound, so each of them is read in the variables
as the tag finds them, and two variables may be swapped. `Tag.BindsAtOnce` says
so of all attributes together. It makes no difference for a call whether the
body works on the variables of the call themselves.

The body of a procedure is then a series of tags that yield true and are no
`return`, up to the end of the body or to a tag that stops it; `Site.Answers`
tells what the call yields by that.
-/

namespace TagScript

namespace Dict

variable {α : Type}

end Dict

namespace Tag

/-- **The last attribute of a key.** No two attributes of a tag that has been
read have the same key, and the last one is then the only one. -/
def Gives (tag : Tag) (key : String) (raw : Option String) : Prop :=
  ∃ before after, tag.attrs = before ++ (key, raw) :: after ∧ key ∉ after.map Prod.fst

end Tag

/-! ## Parameters of a call -/

namespace Runner

variable {s : Frame} {tag : Tag}

end Runner

namespace Runner

/-- The name of the tags that make a conversion. -/
def Conversion.name : Conversion → String
  | .text => "set_str"
  | .integer => "set_int"
  | .double => "set_num"

theorem Conversion.mem_builtins (c : Conversion) : (c.name, assignTyped c) ∈ builtins := by
  cases c <;> simp [builtins, name]

variable {c : Conversion} {s : Frame} {tag : String}

end Runner

/-! ## The body of a procedure -/

namespace Site

end Site

namespace Engine

end Engine

end TagScript
