import TagScript.Markup.Token
import TagScript.Tag

/-!
# From tokens to the tag of a document

The tokens of a document are read from the first to the last with the
elements that are still open held on a stack. An element knows the name
spaces declared on it and around it: a qualifier has to be declared where
it is used, and two attributes of one element may not name the same thing.
The tag that results carries plain names – without qualifiers, and
without the declarations – and where two attributes then have one name
the later one counts.

Neighbouring texts and literal sections are one text; an aside between
them keeps them apart. A text that is all blank is dropped.
-/

namespace TagScript.Markup

/-- The name spaces that markup reserves for itself have a common stem. -/
def reservedSpace (name : String) : String := "http:" ++ "//www.w3.org/" ++ name

/-- The name space of names that belong to markup itself. -/
def markupSpace : String := reservedSpace "XML/1998/namespace"

/-- The name space of declarations of name spaces. -/
def declarationSpace : String := reservedSpace "2000/xmlns/"

/-- A part of an element's content, before texts are joined. -/
inductive Part where
  /-- A finished element. -/
  | tag (t : Tag)
  /-- A stretch of text. -/
  | text (cs : List Char)
  /-- An aside. -/
  | aside

/-- An element whose end has not been read. -/
structure Open where
  /-- Its name. -/
  name : QName
  /-- Its attributes under their plain names. -/
  attrs : List (String × Option String)
  /-- The name spaces known in it, by qualifier; the first counts. -/
  spaces : List (String × String)
  /-- Where it started. -/
  start : Place
  /-- Its content so far, from the end. -/
  parts : List Part

/-! ## Name spaces -/

/-- One declaration on an element, given those before it: the qualifier –
empty for the default – and the name space it now has. The qualifier of
markup itself can only be given what it has. -/
def declare? (name : QName) (value : String) (declared : List (String × String)) :
    Option (List (String × String)) :=
  if name.qualifier = "xmlns" then
    if value = declarationSpace then none
    else if (name.base = "xml") ≠ (value = markupSpace) then none
    else if declared.any (·.1 == name.base) then none
    else if value = markupSpace then some declared
    else some (declared ++ [(name.base, value)])
  else if value = markupSpace ∨ value = declarationSpace then none
  else some (declared ++ [("", value)])

/-- Whether an attribute declares a name space. -/
def isDeclaration (name : QName) : Bool := name.qualifier == "xmlns" || name.base == "xmlns"

/-- The name spaces that the attributes of an element declare. -/
def declarations : List (QName × String) → List (String × String) →
    Option (List (String × String))
  | [], declared => some declared
  | (name, value) :: rest, declared =>
    if isDeclaration name then
      match declare? name value declared with
      | none => none
      | some declared => declarations rest declared
    else declarations rest declared

/-- The name space of an attribute: none without a qualifier. -/
def attributeSpace? (spaces : List (String × String)) (name : QName) : Option (Option String) :=
  if name.qualifier = "xml" then some (some markupSpace)
  else if name.qualifier.isEmpty then some none
  else (spaces.find? (·.1 == name.qualifier)).map fun space => some space.2

/-- The attributes with the name spaces they are in, refused where a
qualifier is unknown or two attributes name the same thing. -/
def expandAttributes (spaces : List (String × String)) :
    List (QName × String) → List (Option String × String) →
    Option (List (String × Option String))
  | [], _ => some []
  | (name, value) :: rest, seen =>
    match attributeSpace? spaces name with
    | none => none
    | some space =>
      if seen.contains (space, name.base) then none
      else (expandAttributes spaces rest ((space, name.base) :: seen)).map
        ((name.base, some value) :: ·)

/-- **An element as it is opened**: its declarations are made, its
attributes expanded and its own qualifier looked up. -/
def openElement? (around : List (String × String)) (start : Place) (name : QName)
    (attrs : List (QName × String)) : Option Open := do
  if name.qualifier = "xmlns" then none
  let declared ← declarations attrs []
  let spaces := declared ++ around
  let plain ← expandAttributes spaces (attrs.filter fun entry => !isDeclaration entry.1) []
  if !name.qualifier.isEmpty && !spaces.any (·.1 == name.qualifier) then none
  some ⟨name, Dict.ofList plain, spaces, start, []⟩

/-! ## Content -/

/-- A finished text, given by its stretches from the last to the first,
unless it is blank. -/
def flush (stretches : List (List Char)) : List (Node Tag) :=
  let cs := stretches.reverse.flatten
  if cs.all Text.isBlank then [] else [.text (String.ofList cs)]

/-- The content of an element from its parts in document order:
neighbouring texts joined, `pending` being the stretches of the text not
yet finished, from the last to the first, and blank texts dropped. -/
def content (pending : List (List Char)) : List Part → List (Node Tag)
  | [] => flush pending
  | .text cs :: rest => content (cs :: pending) rest
  | .aside :: rest => flush pending ++ content [] rest
  | .tag t :: rest => flush pending ++ .tag t :: content [] rest

/-- The tag of an element that ends at a place. -/
def Open.close (o : Open) (stop : Place) : Tag :=
  ⟨o.name.base, o.attrs, content [] o.parts.reverse, ⟨o.start, stop⟩⟩

/-- An element with one more part. -/
def Open.push (o : Open) (part : Part) : Open := { o with parts := part :: o.parts }

/-! ## The tree -/

/-- How far the reading of a document has come. -/
structure Progress where
  /-- The elements that are open, the innermost first. -/
  stack : List Open
  /-- The document's element, once it is finished. -/
  root : Option Tag
  /-- The place reached. -/
  place : Place

/-- A finished element joins the one around it, or is the document's. -/
def Progress.finish? (p : Progress) (stack : List Open) (t : Tag) (place : Place) :
    Option Progress :=
  match stack, p.root with
  | outer :: rest, root => some ⟨outer.push (.tag t) :: rest, root, place⟩
  | [], none => some ⟨[], some t, place⟩
  | [], some _ => none

/-- **One token read.** Outside the document's element there may be only
asides and blanks. -/
def Progress.step? (p : Progress) (lexeme : Lexeme) : Option Progress :=
  let place := p.place.after lexeme.source
  match lexeme.token with
  | .aside =>
    match p.stack with
    | [] => some { p with place }
    | o :: rest => some { p with stack := o.push .aside :: rest, place }
  | .text cs =>
    match p.stack with
    | [] => if lexeme.source.all isSpace then some { p with place } else none
    | o :: rest => some { p with stack := o.push (.text cs) :: rest, place }
  | .literal cs =>
    match p.stack with
    | [] => none
    | o :: rest => some { p with stack := o.push (.text cs) :: rest, place }
  | .start name attrs closed =>
    let around := match p.stack with
      | [] => []
      | o :: _ => o.spaces
    match openElement? around p.place name attrs with
    | none => none
    | some o =>
      if closed then p.finish? p.stack (o.close place) place
      else if p.stack.isEmpty && p.root.isSome then none
      else some { p with stack := o :: p.stack, place }
  | .stop name =>
    match p.stack with
    | [] => none
    | o :: rest => if o.name = name then p.finish? rest (o.close place) place else none

/-- All tokens read. -/
def Progress.steps? : Progress → List Lexeme → Option Progress
  | p, [] => some p
  | p, lexeme :: rest =>
    match p.step? lexeme with
    | none => none
    | some p => p.steps? rest

/-- **The tag of a document.** A document may begin with a byte order mark,
which takes up a column, and with a declaration. -/
def parse? (source : String) : Option Tag := do
  let c := Cursor.start source.toList
  let c := if c.nextIs (· == Text.byteOrderMark) then c.skip 1 else c
  let c ← if c.sees "<?xml " then readDeclaration (c.skip 5) else some c
  let tokens ← lexemes c.ahead.length c.ahead
  let done ← Progress.steps? ⟨[], none, Place.first.after c.source⟩ tokens
  if done.stack.isEmpty then done.root else none

/-- What diagnostics say of a text that is no document. -/
def refusal : String := "the text is not a well-formed document"

end TagScript.Markup
