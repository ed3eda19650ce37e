import TagScript.Value
import TagScript.Text.Quoted

/-!
# Writing JSON

Values are written as compact JSON: no blanks, map members in key order,
and in texts only what has to be escaped is escaped. What JSON has no
form for – an iterator, a handler, a double that is not finite – is
written as `null`; `Json.carried` is the value that is left of a value on
the way.
-/

namespace TagScript.Json

/-- **Doubles in JSON**: plain from a hundred-thousandth up to below ten
to the sixteenth, with a fraction even if it is zero, and with an
exponent outside; a tie goes to the even digit. -/
def doubles : Decimal.Layout where
  tie := .toEven
  positional := fun power => -5 ≤ power && power < 16
  pointZero := true

/-- The written form of a character inside a text. -/
def escapeChar (c : Char) : List Char :=
  match c with
  | '"' => ['\\', '"']
  | '\\' => ['\\', '\\']
  | '\n' => ['\\', 'n']
  | '\r' => ['\\', 'r']
  | '\t' => ['\\', 't']
  | c =>
    if c.toNat = 0x08 then ['\\', 'b']
    else if c.toNat = 0x0C then ['\\', 'f']
    else if c.toNat < 0x20 then
      ['\\', 'u', '0', '0', Nat.digitChar (c.toNat / 16), Nat.digitChar (c.toNat % 16)]
    else [c]

/-- The written form of a text. -/
def writeText (s : String) : List Char := '"' :: s.toList.flatMap escapeChar ++ ['"']

mutual

/-- **The written form of a value.** -/
def write : Value → List Char
  | .null | .iter _ _ | .handler _ => "null".toList
  | .bool b => (if b then "true" else "false").toList
  | .int n => Decimal.signed n.toInt
  | .float x => if x.isFinite then (doubles.write x).toList else "null".toList
  | .str s => writeText s
  | .array items => '[' :: writeItems items
  | .map entries => '{' :: writeMembers entries

/-- The items of an array and its closing bracket. -/
def writeItems : List Value → List Char
  | [] => [']']
  | [v] => write v ++ [']']
  | v :: rest => write v ++ ',' :: writeItems rest

/-- The members of a map and its closing brace. -/
def writeMembers : List (String × Value) → List Char
  | [] => ['}']
  | [(key, v)] => writeText key ++ ':' :: write v ++ ['}']
  | (key, v) :: rest => writeText key ++ ':' :: write v ++ ',' :: writeMembers rest

end

/-- The written form of a value as a text. -/
def text (v : Value) : String := String.ofList (write v)

/-- The written form of a text as a text, quotation marks included. -/
def quoted (s : String) : String := String.ofList (writeText s)

mutual

/-- **What JSON carries of a value.** -/
def carried : Value → Value
  | .iter _ _ | .handler _ => .null
  | .float x => if x.isFinite then .float x else .null
  | .array items => .array (carriedItems items)
  | .map entries => .map (carriedMembers entries)
  | v => v

/-- What JSON carries of the items of an array. -/
def carriedItems : List Value → List Value
  | [] => []
  | v :: rest => carried v :: carriedItems rest

/-- What JSON carries of the members of a map. -/
def carriedMembers : List (String × Value) → List (String × Value)
  | [] => []
  | (key, v) :: rest => (key, carried v) :: carriedMembers rest

end

end TagScript.Json
