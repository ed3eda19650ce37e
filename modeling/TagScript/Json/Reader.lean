import TagScript.Value

/-!
# Reading JSON

The reader accepts exactly the JSON grammar: no comments, no trailing
commas, no leading zeros, no control characters inside texts, and no
surrogate that stands alone. A text holds one value with blanks around it
and nothing else. Arrays and maps nest at most 127 deep.

A number without a fraction and an exponent that fits 64 bits is an
integer; every other number is a double, and so is a negative zero. The
digits of a double are kept as long as the number they spell fits 64
bits; that number is rounded to a double and then scaled by its power of
ten with a second rounding. A number too great for a double is refused.

Each function reads a first part of the characters and gives back the
rest.
-/

namespace TagScript.Json

/-- The blanks of JSON. -/
def isBlank (c : Char) : Bool := c == ' ' || c == '\t' || c == '\n' || c == '\r'

/-- The characters after the leading blanks. -/
def skipBlanks (cs : List Char) : List Char := cs.dropWhile isBlank

/-! ## Texts -/

/-- The value of a digit in base sixteen. -/
def hexDigit? (c : Char) : Option Nat :=
  if '0' ≤ c ∧ c ≤ '9' then some (c.toNat - '0'.toNat)
  else if 'a' ≤ c ∧ c ≤ 'f' then some (c.toNat - 'a'.toNat + 10)
  else if 'A' ≤ c ∧ c ≤ 'F' then some (c.toNat - 'A'.toNat + 10)
  else none

/-- The 16-bit unit that four digits spell. -/
def unit? (a b c d : Char) : Option Nat :=
  match hexDigit? a, hexDigit? b, hexDigit? c, hexDigit? d with
  | some a, some b, some c, some d => some (((a * 16 + b) * 16 + c) * 16 + d)
  | _, _, _, _ => none

/-- The units that begin a pair. -/
def isLeadingUnit (u : Nat) : Bool := 0xD800 ≤ u && u < 0xDC00

/-- The units that end a pair. -/
def isTrailingUnit (u : Nat) : Bool := 0xDC00 ≤ u && u < 0xE000

/-- The character a pair of units stands for. -/
def pairChar (u v : Nat) : Char := Char.ofNat (0x10000 + (u - 0xD800) * 0x400 + (v - 0xDC00))

/-- The character a two-character escape stands for. -/
def shortEscape? (c : Char) : Option Char :=
  match c with
  | '"' => some '"'
  | '\\' => some '\\'
  | '/' => some '/'
  | 'b' => some (Char.ofNat 0x08)
  | 'f' => some (Char.ofNat 0x0C)
  | 'n' => some '\n'
  | 'r' => some '\r'
  | 't' => some '\t'
  | _ => none

/-- A character put in front of what was read after it. -/
def push (c : Char) : Option (List Char × List Char) → Option (List Char × List Char)
  | some (cs, rest) => some (c :: cs, rest)
  | none => none

/-- **The characters of a text**, from after its opening quotation mark. -/
def readText : List Char → Option (List Char × List Char)
  | [] => none
  | '"' :: rest => some ([], rest)
  | '\\' :: 'u' :: a :: b :: c :: d :: rest =>
    match unit? a b c d with
    | none => none
    | some u =>
      if isLeadingUnit u then
        match rest with
        | '\\' :: 'u' :: a' :: b' :: c' :: d' :: rest' =>
          match unit? a' b' c' d' with
          | none => none
          | some v => if isTrailingUnit v then push (pairChar u v) (readText rest') else none
        | _ => none
      else if isTrailingUnit u then none
      else push (Char.ofNat u) (readText rest)
  | '\\' :: c :: rest =>
    match shortEscape? c with
    | some c => push c (readText rest)
    | none => none
  | c :: rest => if c.toNat < 0x20 then none else push c (readText rest)

/-! ## Numbers -/

/-- Digits taken as long as the number they spell fits 64 bits: that
number, how many were taken, and the rest. -/
def takeFitting (n : Nat) : List Char → Nat × Nat × List Char
  | [] => (n, 0, [])
  | c :: rest =>
    match Decimal.digit? c with
    | some d =>
      if n * 10 + d < 0x10000000000000000 then
        let (m, taken, rest) := takeFitting (n * 10 + d) rest
        (m, taken + 1, rest)
      else (n, 0, c :: rest)
    | none => (n, 0, c :: rest)

/-- A power of ten as a double. -/
def powerOfTen (e : Nat) : Binary64 := .ofRatio false (Nat.pow 10 e) 1

/-- **A 64-bit number scaled by a power of ten**, rounded before and after
the scaling; below `10 ^ -308` the scaling takes two steps, and below
`10 ^ -616` nothing is left. -/
def scale? (n : Nat) (e : Int) : Option Binary64 :=
  let f := Binary64.ofInt n
  if n = 0 then some f
  else if 308 < e then none
  else if 0 ≤ e then
    let product := f.mul (powerOfTen e.toNat)
    if product.isFinite then some product else none
  else
    let down := (-e).toNat
    if down ≤ 308 then some (f.div (powerOfTen down))
    else if down ≤ 616 then some ((f.div (powerOfTen 308)).div (powerOfTen (down - 308)))
    else some (.ofMagnitude false 0)

/-- A double from its sign, its digits and its power of ten. -/
def double? (negative : Bool) (n : Nat) (e : Int) : Option Value :=
  (scale? n e).map fun x => .float (.ofMagnitude negative x.magnitude)

/-- A number without fraction and exponent. -/
def whole (negative : Bool) (n : Nat) : Value :=
  if negative then
    if n = 0 ∨ 0x8000000000000000 < n then .float (.ofRatio true n 1) else .int (Int64.ofInt (-n))
  else
    if n < 0x8000000000000000 then .int (Int64.ofNat n) else .float (.ofRatio false n 1)

/-- An exponent from here on is beyond all doubles, whatever the digits. -/
def maxExponent : Nat := 0x80000000

/-- An optional exponent: its value, and the rest. A number that goes on
with the mark of an exponent must have one. -/
def readExponent : List Char → Option (Option Int × List Char)
  | c :: rest =>
    if c = 'e' ∨ c = 'E' then
      let (negative, digits) := Decimal.sign rest
      let spelled := digits.takeWhile Char.isDigit
      if spelled.isEmpty then none
      else
        let e : Int := Decimal.ofDigitsUpTo maxExponent spelled
        some (some (if negative then -e else e), digits.dropWhile Char.isDigit)
    else some (none, c :: rest)
  | [] => some (none, [])

/-- **A number without its sign.** -/
def readUnsigned (negative : Bool) (cs : List Char) : Option (Value × List Char) :=
  let (n, taken, rest) := takeFitting 0 cs
  if taken = 0 ∨ (cs.head? = some '0' ∧ 1 < taken) then none
  else
    let dropped := (rest.takeWhile Char.isDigit).length
    let rest := rest.dropWhile Char.isDigit
    match rest with
    | '.' :: fraction =>
      if !(fraction.head?.any Char.isDigit) then none
      else
        let (m, places, rest) := takeFitting n fraction
        match readExponent (rest.dropWhile Char.isDigit) with
        | none => none
        | some (e, rest) =>
          (double? negative m (dropped - places + e.getD 0)).map fun v => (v, rest)
    | rest =>
      match readExponent rest with
      | none => none
      | some (none, rest) =>
        if dropped = 0 then some (whole negative n, rest)
        else (double? negative n dropped).map fun v => (v, rest)
      | some (some e, rest) => (double? negative n (dropped + e)).map fun v => (v, rest)

/-! ## Values -/

/-- The rest after a word that has to stand here. -/
def expect (word : String) (cs : List Char) : Option (List Char) :=
  if word.toList.isPrefixOf cs then some (cs.drop word.length) else none

/-- A value that is neither an array nor a map. -/
def readScalar : List Char → Option (Value × List Char)
  | '"' :: rest => (readText rest).map fun (cs, rest) => (.str (String.ofList cs), rest)
  | '-' :: rest => readUnsigned true rest
  | cs@('t' :: _) => (expect "true" cs).map fun rest => (.bool true, rest)
  | cs@('f' :: _) => (expect "false" cs).map fun rest => (.bool false, rest)
  | cs@('n' :: _) => (expect "null" cs).map fun rest => (.null, rest)
  | cs => readUnsigned false cs

/-- The items of an array up to its closing bracket, at most as many as
`bound`. -/
def readItems (item : List Char → Option (Value × List Char)) :
    (bound : Nat) → List Char → Option (List Value × List Char)
  | 0, _ => none
  | bound + 1, cs =>
    match item cs with
    | none => none
    | some (v, rest) =>
      match skipBlanks rest with
      | ',' :: rest => (readItems item bound rest).map fun (vs, rest) => (v :: vs, rest)
      | ']' :: rest => some ([v], rest)
      | _ => none

/-- A member of a map: its key, a colon and its value. -/
def readMember (item : List Char → Option (Value × List Char)) (cs : List Char) :
    Option ((String × Value) × List Char) :=
  match skipBlanks cs with
  | '"' :: rest =>
    match readText rest with
    | none => none
    | some (key, rest) =>
      match skipBlanks rest with
      | ':' :: rest => (item rest).map fun (v, rest) => ((String.ofList key, v), rest)
      | _ => none
  | _ => none

/-- The members of a map up to its closing brace, at most as many as
`bound`. -/
def readMembers (item : List Char → Option (Value × List Char)) :
    (bound : Nat) → List Char → Option (List (String × Value) × List Char)
  | 0, _ => none
  | bound + 1, cs =>
    match readMember item cs with
    | none => none
    | some (m, rest) =>
      match skipBlanks rest with
      | ',' :: rest => (readMembers item bound rest).map fun (ms, rest) => (m :: ms, rest)
      | '}' :: rest => some ([m], rest)
      | _ => none

/-- **A value with the blanks in front of it**, arrays and maps nested at
most `levels` deep and with at most `bound` members. Of two members of one
key the later one counts. -/
def readValue (bound : Nat) : (levels : Nat) → List Char → Option (Value × List Char)
  | 0, cs => readScalar (skipBlanks cs)
  | levels + 1, cs =>
    match skipBlanks cs with
    | '[' :: rest =>
      match skipBlanks rest with
      | ']' :: rest => some (.array [], rest)
      | rest => (readItems (readValue bound levels) bound rest).map fun (vs, rest) =>
          (.array vs, rest)
    | '{' :: rest =>
      match skipBlanks rest with
      | '}' :: rest => some (.map [], rest)
      | rest => (readMembers (readValue bound levels) bound rest).map fun (ms, rest) =>
          (.map (Dict.ofList ms), rest)
    | cs => readScalar cs

/-- How deep arrays and maps may nest. -/
def maxLevels : Nat := 127

/-- **The value a text spells.** -/
def parse? (s : String) : Option Value :=
  match readValue s.length maxLevels s.toList with
  | some (v, rest) => if (skipBlanks rest).isEmpty then some v else none
  | none => none

/-- What diagnostics say of a text that is no JSON. -/
def refusal : String := "the text does not spell a value"

end TagScript.Json
