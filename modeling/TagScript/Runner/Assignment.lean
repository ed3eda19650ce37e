import TagScript.Engine.Attribute
import TagScript.Number.Decimal

/-!
# Assigning and reading variables

An assignment binds one variable to a text or to what a tag yields. A
typed assignment binds every one of its attributes, after all of them
have been converted, so that it binds all of them or none. A reading
yields a variable, an entry of the map it holds, or an item of the array
or the text it holds, counted from the end if the index is negative.
-/

namespace TagScript

namespace Runner

/-- **An assignment.** A value that is empty or absent is null. -/
def assign : Runner := fun site => do
  let type := Text.trim ((← Run.attrText site.tag "type").getD "value")
  let key ← Run.requireKey site.tag "key"
  let global ← Run.attrSwitch site.tag "global" false
  let value ←
    if type = "value" then
      match ← Run.attrText site.tag "value" with
      | some text => pure (if text.isEmpty then Value.null else .str text)
      | none => pure .null
    else if type = "object" then
      match site.tag.firstTag? with
      | some child => do pure (← site.run child).toValue
      | none => Run.fail .assignedContentMissing
    else if type = "eval" then Run.fail .assignedComputation
    else Run.fail (.assignedType type)
  Run.store key value global
  pure .ok

/-! ## Typed assignments -/

/-- The types of typed assignments. -/
inductive Conversion where
  /-- A text stays one; no text is null. -/
  | text
  /-- An integer, or a double cut off behind its point. -/
  | integer
  /-- A double. -/
  | double
  deriving DecidableEq, Repr

/-- The value that a text is converted to. -/
def Conversion.value? : Conversion → String → Option Value
  | .text, s => some (.str s)
  | .integer, s =>
    let s := Text.trim s
    ((Decimal.int64? s).or ((Decimal.binary64? s).bind Binary64.truncate?)).map .int
  | .double, s => (Decimal.binary64? (Text.trim s)).map .float

/-- What a conversion wants a text to be. -/
def Conversion.wanted : Conversion → String
  | .text => "a text"
  | .integer => "an integer"
  | .double => "a number"

/-- The value of an attribute, converted. -/
def Conversion.apply (conversion : Conversion) (tag key : String) (text : Option String) :
    Except Cause Value :=
  match conversion, text with
  | .text, none => .ok .null
  | _, none => .error (.notConverted tag key conversion.wanted none)
  | _, some s =>
    match conversion.value? s with
    | some value => .ok value
    | none => .error (.notConverted tag key conversion.wanted (some s))

/-- **What a typed assignment binds**, or the first cause that it binds
nothing. -/
def converted (s : Frame) (conversion : Conversion) (tag : String) :
    List (String × Option String) → Except Cause (List (String × Value))
  | [] => .ok []
  | (key, raw) :: rest =>
    if key = Reserved.procPrivilege then .error (.reservedVariable key)
    else
      match conversion.apply tag key (raw.map s.substitute) with
      | .error cause => .error cause
      | .ok value => (converted s conversion tag rest).map ((key, value) :: ·)

/-- **A typed assignment.** -/
def assignTyped (conversion : Conversion) : Runner := fun site => do
  let bindings ← Run.ofExcept (converted (← Run.frame) conversion site.tag.name site.tag.attrs)
  Run.change fun s => { s with locals := s.locals.insertAll bindings }
  pure .ok

/-! ## Readings -/

/-- An attribute, if it is there and not empty. -/
def nonEmpty? (text : Option String) : Option String := text.filter fun s => !s.isEmpty

/-- The items that an index counts. -/
def indexed? : Value → Option (List Value)
  | .array items => some items
  | .str s => some (Value.characters s)
  | _ => none

/-- The item at a position; a negative one counts from the end. -/
def itemAt? (items : List Value) (position : Int) : Option Value :=
  let place := if position < 0 then items.length + position else position
  if place < 0 then none else items[place.toNat]?

/-- The item of a variable's value that an index names. -/
def pick (key : String) (value : Value) (index : String) : Except Cause Value :=
  match Decimal.int64? (Text.trim index) with
  | none => .error (.notIndex index)
  | some position =>
    match indexed? value with
    | none => .error (.notIndexable key value.kind)
    | some items =>
      match itemAt? items position.toInt with
      | none => .error (.outOfRange position key)
      | some item => .ok item

/-- **A reading.** The default stands in for a variable and a map entry
that are absent, and for an item that is not true. -/
def reading : Runner := fun site => do
  let key ← Run.attrKey site.tag "key"
  let given := (← Run.attrText site.tag "defvalue").map Value.str
  if key.isEmpty then
    match given with
    | some value => pure (.value value)
    | none => Run.fail (.nothingRead site.tag.name)
  else do
    let default := given.getD .null
    let value := (← Run.look (·.lookup key)).getD default
    match nonEmpty? (← Run.attrText site.tag "dict_key") with
    | some member =>
      match value with
      | .map entries => pure (.value ((Dict.get? entries member).getD default))
      | _ => Run.fail (.notMap key value.kind)
    | none =>
      match nonEmpty? (← Run.attrText site.tag "index") with
      | some index =>
        let item ← Run.ofExcept (pick key value index)
        pure (.value (if item.truthy then item else default))
      | none => pure (.value value)

end Runner

end TagScript
