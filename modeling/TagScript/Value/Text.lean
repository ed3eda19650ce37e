import TagScript.Json.Writer

/-!
# The text of a value

Substitution, comparison by text and delimited output all see a value by
its text: the text itself, the digits of a number, compact JSON for
arrays and maps. A double that is a 64-bit integer shows as that integer,
so the negative zero shows as `0`; other doubles show all their digits
without an exponent.
-/

namespace TagScript.Value

/-- **Doubles in texts**: always plain, without a fraction where there is
none; a tie goes up. -/
def doubles : Decimal.Layout where
  tie := .up
  positional := fun _ => true
  pointZero := false

/-- A double as a text. -/
def doubleText (x : Binary64) : String :=
  match x.toInt64? with
  | some n => String.ofList (Decimal.signed n.toInt)
  | none =>
    if x.isNaN then "NaN"
    else if x.isFinite then doubles.write x
    else if x.isNegative then "-inf" else "inf"

/-- **The text of a value.** -/
def text : Value → String
  | .null => ""
  | .bool b => if b then "true" else "false"
  | .int n => String.ofList (Decimal.signed n.toInt)
  | .float x => doubleText x
  | .str s => s
  | v@(.array _) | v@(.map _) => Json.text v
  | .iter _ _ => "<iterator>"
  | .handler _ => "<handler>"

@[simp] theorem text_null : text .null = "" := rfl

@[simp] theorem text_str (s : String) : text (.str s) = s := rfl

end TagScript.Value
