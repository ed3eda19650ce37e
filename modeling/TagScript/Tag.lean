import TagScript.Dict
import TagScript.Text.Quoted
import TagScript.Text.Blank

/-!
# Tags

A script is a tree of tags. A tag has a name that chooses its runner,
attributes – each with a text or with no value at all, which is not the
same as the empty text – and a content of tags and texts. Where a tag
stands in its source is kept beside it for diagnostics and takes no part
in what it does.
-/

namespace TagScript

/-- A place in a source: lines and columns count from one, columns in
characters. -/
structure Place where
  /-- The line, as ended by line feeds. -/
  line : Nat
  /-- The column in characters. -/
  column : Nat
  deriving DecidableEq, Repr

namespace Place

/-- The first place of a source. -/
def first : Place := ⟨1, 1⟩

/-- The place after a character. -/
def next (p : Place) (c : Char) : Place :=
  if c = '\n' then ⟨p.line + 1, 1⟩ else ⟨p.line, p.column + 1⟩

/-- The place after some characters. -/
def after (p : Place) (cs : List Char) : Place := cs.foldl next p

end Place

/-- A stretch of a source; its end is the place after its last
character. -/
structure Span where
  /-- Where it starts. -/
  start : Place
  /-- The place after it. -/
  stop : Place
  deriving DecidableEq, Repr

/-- The span of a tag that no source has: the empty stretch at the first
place. -/
def Span.nowhere : Span := ⟨.first, .first⟩

/-- A part of a tag's content. -/
inductive Node (τ : Type) where
  /-- A tag inside the tag. -/
  | tag (t : τ)
  /-- Text between the tags. -/
  | text (s : String)
  deriving Repr

/-- **A tag.** -/
structure Tag where
  /-- What chooses its runner. -/
  name : String
  /-- The attributes; `none` is an attribute without a value. -/
  attrs : List (String × Option String)
  /-- Tags and texts, in document order. -/
  content : List (Node Tag)
  /-- Where it stands in its source. -/
  span : Span

/-- The nameless tag with nothing in it. -/
instance : Inhabited Tag := ⟨⟨"", [], [], .nowhere⟩⟩

namespace Tag

/-- The text of an attribute; an absent attribute and one without a value
both have none. -/
def attr (t : Tag) (name : String) : Option String := (Dict.get? t.attrs name).join

/-- Whether the attribute is there, with or without a value. -/
def hasAttr (t : Tag) (name : String) : Bool := Dict.contains t.attrs name

/-- **The tags inside a tag**, in document order. -/
def tags (t : Tag) : List Tag :=
  t.content.filterMap fun
    | .tag child => some child
    | .text _ => none

/-- The first tag inside a tag. -/
def firstTag? (t : Tag) : Option Tag := t.tags.head?

/-- **The text of a tag**: what stands between its tags, joined. -/
def text (t : Tag) : String :=
  String.join (t.content.filterMap fun
    | .tag _ => none
    | .text s => some s)

/-- The attributes as diagnostics show them, `{"key": "x", "flag": None}`. -/
def showAttrs (t : Tag) : String :=
  let entries := t.attrs.map fun entry =>
    Text.quote entry.1 ++ ": " ++ entry.2.elim "None" Text.quote
  "\x7b" ++ Text.joinWith ", " entries ++ "\x7d"

/-! ## All tags of a tree -/

mutual

/-- **A tag and all tags inside it**, in document order. -/
def withAll : Tag → List Tag
  | ⟨name, attrs, content, span⟩ => ⟨name, attrs, content, span⟩ :: allIn content

/-- All tags of a content, in document order. -/
def allIn : List (Node Tag) → List Tag
  | [] => []
  | node :: rest => allOf node ++ allIn rest

/-- All tags of a part of a content, in document order. -/
def allOf : Node Tag → List Tag
  | .tag t => withAll t
  | .text _ => []

end

end Tag

end TagScript
