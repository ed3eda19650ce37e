import TagScript.Dict
import TagScript.Number.Decimal

/-!
# Values

What a variable holds and what a tag yields. Scripts are untyped, so
there is one type of values; its kinds are those a script can tell apart
by their names in diagnostics.

Two relations on values matter and differ on numbers. `Value.beq` is
structural: it never takes an integer for a double. `Value.looseEq`
compares two numbers as doubles, whatever kinds they have. The order
`Value.compare` is partial: it compares integers exactly, other numbers
as doubles, texts by code points, booleans and, item by item, arrays, and
refuses everything else.
-/

namespace TagScript

/-- **An exception handler**: the file that collects the faults and the
variables it records of each. Two handlers are one exactly when they were
installed by the same tag, which `id` tells. -/
structure Handler where
  /-- Which installation this is. -/
  id : Nat
  /-- The file the rows go to. -/
  path : String
  /-- The variables recorded, in column order. -/
  columns : List String
  deriving DecidableEq, Repr

/-- **A value of a script.** -/
inductive Value where
  /-- No value; what an absent variable reads as. -/
  | null
  /-- A truth value. -/
  | bool (b : Bool)
  /-- A 64-bit integer. -/
  | int (n : Int64)
  /-- A double. -/
  | float (x : Binary64)
  /-- A text. -/
  | str (s : String)
  /-- A list of values. -/
  | array (items : List Value)
  /-- A dictionary of values. -/
  | map (entries : List (String × Value))
  /-- A place in a list of values: the first `position` of them have been
  taken. -/
  | iter (items : List Value) (position : Nat)
  /-- An exception handler. -/
  | handler (h : Handler)
  deriving Repr, Inhabited

/-- The kinds of values. -/
inductive Kind where
  | null | boolean | int | float | string | array | map | iterator | handler
  deriving DecidableEq, Repr

/-- The name of a kind in diagnostics. -/
def Kind.name : Kind → String
  | .null => "null"
  | .boolean => "boolean"
  | .int => "int"
  | .float => "float"
  | .string => "string"
  | .array => "array"
  | .map => "map"
  | .iterator => "iterator"
  | .handler => "handler"

namespace Value

/-- The kind of a value. -/
def kind : Value → Kind
  | .null => .null
  | .bool _ => .boolean
  | .int _ => .int
  | .float _ => .float
  | .str _ => .string
  | .array _ => .array
  | .map _ => .map
  | .iter _ _ => .iterator
  | .handler _ => .handler

/-- Whether there is no value. -/
def isNull : Value → Bool
  | .null => true
  | _ => false

/-- **Truth of a value**: what is absent, false, zero or empty is not
true. -/
def truthy : Value → Bool
  | .null => false
  | .bool b => b
  | .int n => n != 0
  | .float x => !x.isZero
  | .str s => !s.isEmpty
  | .array items => !items.isEmpty
  | .map entries => !entries.isEmpty
  | .iter _ _ | .handler _ => true

/-- The text of a value that is a text. -/
def str? : Value → Option String
  | .str s => some s
  | _ => none

/-- The double of a number. -/
def double? : Value → Option Binary64
  | .int n => some (.ofInt n.toInt)
  | .float x => some x
  | _ => none

/-- The items an iterator has not given out yet. -/
def remaining (items : List Value) (position : Nat) : List Value := items.drop position

/-- The characters of a text, each as a text. -/
def characters (s : String) : List Value := s.toList.map fun c => .str (String.ofList [c])

/-! ## Structural equality -/

mutual

/-- **Structural equality.** Doubles are compared numerically, so that what
is not a number differs from itself; iterators by their items and their
place. -/
def beq : Value → Value → Bool
  | .null, .null => true
  | .bool a, .bool b => a == b
  | .int a, .int b => a == b
  | .float a, .float b => a.numEq b
  | .str a, .str b => a == b
  | .array as, .array bs => beqItems as bs
  | .map as, .map bs => beqEntries as bs
  | .iter as i, .iter bs j => beqItems as bs && i == j
  | .handler a, .handler b => a.id == b.id
  | _, _ => false

/-- Structural equality of lists, item by item. -/
def beqItems : List Value → List Value → Bool
  | [], [] => true
  | a :: as, b :: bs => beq a b && beqItems as bs
  | _, _ => false

/-- Structural equality of dictionaries, entry by entry. -/
def beqEntries : List (String × Value) → List (String × Value) → Bool
  | [], [] => true
  | (k, a) :: as, (l, b) :: bs => k == l && beq a b && beqEntries as bs
  | _, _ => false

end

/-- **Equality with numbers compared as doubles.** -/
def looseEq (a b : Value) : Bool :=
  match a.double?, b.double? with
  | some x, some y => x.numEq y
  | _, _ => a.beq b

/-! ## The partial order -/

/-- Two values that cannot be compared, by their kinds. -/
structure Incomparable where
  /-- The kind of the left operand. -/
  left : Kind
  /-- The kind of the right operand. -/
  right : Kind
  deriving DecidableEq, Repr

/-- The order of two numbers as doubles, refused where there is none. -/
def compareDoubles (left right : Kind) (x y : Binary64) : Except Incomparable Ordering :=
  match x.compare? y with
  | some o => .ok o
  | none => .error ⟨left, right⟩

mutual

/-- **The order of two values**, where they have one. -/
def compare : Value → Value → Except Incomparable Ordering
  | .int a, .int b => .ok (Ord.compare a.toInt b.toInt)
  | .int a, .float y => compareDoubles .int .float (.ofInt a.toInt) y
  | .float x, .int b => compareDoubles .float .int x (.ofInt b.toInt)
  | .float x, .float y => compareDoubles .float .float x y
  | .str a, .str b => .ok (compareOfLessAndEq a b)
  | .bool a, .bool b => .ok (Ord.compare a.toNat b.toNat)
  | .array as, .array bs => compareItems as bs
  | a, b => .error ⟨a.kind, b.kind⟩

/-- The order of two arrays: that of the first items that differ, and by
length where one continues the other. -/
def compareItems : List Value → List Value → Except Incomparable Ordering
  | [], [] => .ok .eq
  | [], _ :: _ => .ok .lt
  | _ :: _, [] => .ok .gt
  | a :: as, b :: bs =>
    match compare a b with
    | .error e => .error e
    | .ok .eq => compareItems as bs
    | .ok o => .ok o

end

end Value

end TagScript
