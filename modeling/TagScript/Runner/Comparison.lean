import TagScript.Engine.Attribute

/-!
# Connectives and comparisons

Both take their operands from two variables, or else from the tags inside,
of which there have to be two or more. A connective yields the value of
the operand that decides it, and the last operand if none does; operands
after the deciding one are not executed. A comparison holds if it holds
between all neighbours, and no operand is executed after two neighbours
between which it fails.
-/

namespace TagScript

/-- The connectives. -/
inductive Connective where
  /-- Decided by what is false. -/
  | and
  /-- Decided by what is true. -/
  | or
  deriving DecidableEq, Repr

/-- Whether a value decides a connective. -/
def Connective.decidedBy : Connective → Value → Bool
  | .and, v => !v.truthy
  | .or, v => v.truthy

/-- The comparisons. -/
inductive Comparison where
  | equal | notEqual | less | lessEqual | greater | greaterEqual
  deriving DecidableEq, Repr

/-- **Whether a comparison holds.** Equality is loose and always has an
answer; the others have one where the values have an order. -/
def Comparison.holds (left right : Value) : Comparison → Except Value.Incomparable Bool
  | .equal => .ok (left.looseEq right)
  | .notEqual => .ok (!left.looseEq right)
  | .less => (left.compare right).map (· == .lt)
  | .lessEqual => (left.compare right).map (· != .gt)
  | .greater => (left.compare right).map (· == .gt)
  | .greaterEqual => (left.compare right).map (· != .lt)

namespace Run

/-- The two variables an operator is asked to look at, if it is asked to
look at two. -/
def keyPair (tag : Tag) : Run (Option (String × String)) := do
  let left ← attrKey tag "key1"
  let right ← attrKey tag "key2"
  pure (if left.isEmpty || right.isEmpty then none else some (left, right))

end Run

namespace Runner

/-- Executes operands up to the one that decides a connective, and yields
its value. -/
def settle (site : Site) (connective : Connective) : List Tag → Run Value
  | [] => pure .null
  | [child] => do return (← site.run child).toValue
  | child :: rest => do
    let value := (← site.run child).toValue
    if connective.decidedBy value then pure value else settle site connective rest

/-- **A connective.** -/
def connective (c : Connective) : Runner := fun site => do
  match ← Run.keyPair site.tag with
  | some (left, right) =>
    let value ← Run.read left
    if c.decidedBy value then pure (.value value)
    else do return .value (← Run.read right)
  | none =>
    if site.tag.tags.length < 2 then Run.fail (.operandsMissing site.tag.name)
    else do return .value (← settle site c site.tag.tags)

/-- The answer of a comparison, or the fault that there is none. -/
def compareValues (c : Comparison) (left right : Value) : Run Bool :=
  Run.ofExcept ((c.holds left right).mapError .incomparable)

/-- Executes operands as long as a comparison holds between each and the
one before it, and tells whether it holds between all of them. -/
def chain (site : Site) (c : Comparison) (previous : Value) : List Tag → Run Bool
  | [] => pure true
  | child :: rest => do
    let current := (← site.run child).toValue
    if ← compareValues c previous current then chain site c current rest else pure false

/-- **A comparison.** -/
def comparison (c : Comparison) : Runner := fun site => do
  match ← Run.keyPair site.tag with
  | some (left, right) =>
    return .ofBool (← compareValues c (← Run.read left) (← Run.read right))
  | none =>
    match site.tag.tags with
    | first :: second :: rest =>
      let value := (← site.run first).toValue
      return .ofBool (← chain site c value (second :: rest))
    | _ => Run.fail (.operandsMissing site.tag.name)

end Runner

end TagScript
