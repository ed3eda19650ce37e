import TagScript.Number.Binary64

/-!
# Decimals: choosing digits and laying them out

A double is shown by the fewest decimal digits that round back to it. On
every decimal grid – the multiples of one power of ten – the double has
two neighbours; the coarsest grid one of whose neighbours rounds back
gives the digits, the nearer neighbour winning where both do. The
candidates are tested in exact integer arithmetic against the interval of
reals that round to the double, whose ends belong to it exactly when the
significand is even.

How the digits are laid out is a decision of the format that shows them
and is recorded in a `Layout`.
-/

namespace TagScript

/-- **A positive decimal**: `digits * 10 ^ exponent`. -/
structure Decimal where
  /-- The digits, read as one number. -/
  digits : Nat
  /-- The power of ten of the last digit. -/
  exponent : Int
  deriving DecidableEq, Repr

namespace Decimal

/-- The decimal as a quotient. -/
def ratio (d : Decimal) : Nat × Nat :=
  (d.digits * Nat.pow 10 d.exponent.toNat, Nat.pow 10 (-d.exponent).toNat)

/-- What is done with a double exactly between two candidates. -/
inductive Tie where
  /-- The candidate with the even last digit is taken. -/
  | toEven
  /-- The greater candidate is taken. -/
  | up
  deriving DecidableEq, Repr

/-- The reals that round to one double: `mid` is the double itself and
`low`, `high` are the ends, all in units of `1 / scale`. -/
structure Interval where
  /-- The lower end. -/
  low : Nat
  /-- The double. -/
  mid : Nat
  /-- The upper end. -/
  high : Nat
  /-- The unit's denominator. -/
  scale : Nat
  /-- Whether the ends round to the double too. -/
  closed : Bool
  deriving Repr

/-- **The reals that round to a finite double.** Below a power of two the
doubles lie half as far apart as above it. -/
def Interval.of (x : Binary64) : Interval :=
  let m := x.significand
  let e := x.exponent
  let unit := Nat.pow 2 e.toNat
  let narrow := m = 0x10000000000000 ∧ x.magnitude / 0x10000000000000 > 1
  { low := (4 * m - if narrow then 1 else 2) * unit
    mid := 4 * m * unit
    high := (4 * m + 2) * unit
    scale := 4 * Nat.pow 2 (-e).toNat
    closed := m % 2 = 0 }

/-- Whether `n * 10 ^ p` lies in the interval. -/
def Interval.has (i : Interval) (n : Nat) (p : Int) : Bool :=
  let value := n * Nat.pow 10 p.toNat * i.scale
  let unit := Nat.pow 10 (-p).toNat
  if i.closed then i.low * unit ≤ value && value ≤ i.high * unit
  else i.low * unit < value && value < i.high * unit

/-- The neighbour of the interval's double on the grid of `10 ^ p` that
lies in the interval; the nearer one, if both do. -/
def Interval.onGrid? (tie : Tie) (i : Interval) (p : Int) : Option Decimal :=
  let num := i.mid * Nat.pow 10 (-p).toNat
  let den := i.scale * Nat.pow 10 p.toNat
  let below := num / den
  let above := below + 1
  let rest := num % den
  match i.has below p, i.has above p with
  | false, false => none
  | true, false => some ⟨below, p⟩
  | false, true => some ⟨above, p⟩
  | true, true =>
    if 2 * rest < den then some ⟨below, p⟩
    else if den < 2 * rest then some ⟨above, p⟩
    else match tie with
      | .up => some ⟨above, p⟩
      | .toEven => some ⟨if below % 2 = 0 then below else above, p⟩

/-- The first hit on the grids from `10 ^ p` downwards. -/
def Interval.search (tie : Tie) (i : Interval) : Nat → Int → Option Decimal
  | 0, _ => none
  | grids + 1, p =>
    match i.onGrid? tie p with
    | some d => if d.digits = 0 then search tie i grids (p - 1) else some d
    | none => search tie i grids (p - 1)

/-- A power of ten above every double with this binary scale. -/
def coarsest (x : Binary64) : Int :=
  (Binary64.binaryScale x.ratio.1 x.ratio.2) * 3 / 10 + 3

/-- **The fewest digits that round back to a finite double other than
zero.** Seventeen digits always suffice, so the grids tried here include
the right one. -/
def shortest (tie : Tie) (x : Binary64) : Decimal :=
  ((Interval.of x).search tie 30 (coarsest x)).getD ⟨0, 0⟩

/-! ## Layout -/

/-- **The decisions of a number format.** -/
structure Layout where
  /-- What is done with a double exactly between two candidates. -/
  tie : Tie
  /-- Whether a number whose leading digit stands at this power of ten is
  written with a decimal point in place, rather than with an exponent. -/
  positional : Int → Bool
  /-- Whether a whole number still shows a fraction, `12.0`. -/
  pointZero : Bool

/-- The decimal digits of a number. -/
def numeral (n : Nat) : List Char := Nat.toDigits 10 n

/-- The decimal digits of an integer, with its sign if it is negative. -/
def signed (n : Int) : List Char :=
  if n < 0 then '-' :: numeral n.natAbs else numeral n.natAbs

/-- The digits with the decimal point in its place. -/
def Layout.plain (layout : Layout) (d : Decimal) : List Char :=
  let ds := numeral d.digits
  if 0 ≤ d.exponent then
    ds ++ List.replicate d.exponent.toNat '0' ++ (if layout.pointZero then ['.', '0'] else [])
  else
    let places := (-d.exponent).toNat
    let padded := List.replicate (places + 1 - ds.length) '0' ++ ds
    padded.take (padded.length - places) ++ '.' :: padded.drop (padded.length - places)

/-- The digits with an exponent, whose sign is always written. -/
def scientific (d : Decimal) : List Char :=
  match numeral d.digits with
  | [] => []
  | first :: rest =>
    let power := d.exponent + rest.length
    first :: (if rest.isEmpty then [] else '.' :: rest)
      ++ 'e' :: (if power < 0 then '-' else '+') :: numeral power.natAbs

/-- A finite double other than zero, without its sign. -/
def Layout.magnitude (layout : Layout) (x : Binary64) : List Char :=
  let d := shortest layout.tie x
  if layout.positional (d.exponent + (numeral d.digits).length - 1)
    then layout.plain d else scientific d

/-- **A finite double in a format.** -/
def Layout.write (layout : Layout) (x : Binary64) : String :=
  let body :=
    if x.isZero then (if layout.pointZero then ['0', '.', '0'] else ['0']) else layout.magnitude x
  String.ofList (if x.isNegative then '-' :: body else body)

/-! ## Reading -/

/-- The value of a digit. -/
def digit? (c : Char) : Option Nat :=
  if c.isDigit then some (c.toNat - '0'.toNat) else none

/-- The number that digits spell, read after a number already spelled. -/
def ofDigitsFrom (n : Nat) (ds : List Char) : Nat :=
  ds.foldl (fun n c => n * 10 + (c.toNat - '0'.toNat)) n

/-- The number that digits spell. -/
def ofDigits (ds : List Char) : Nat := ofDigitsFrom 0 ds

/-- The number that digits spell, where reading stops to count once it is
not below a limit: a number below the limit is read as it is, and any
other as some number that is not below it. -/
def ofDigitsUpTo (limit : Nat) (ds : List Char) : Nat :=
  ds.foldl (fun n c => if n < limit then n * 10 + (c.toNat - '0'.toNat) else n) 0

/-- A sign in front, if there is one. -/
def sign : List Char → Bool × List Char
  | '-' :: rest => (true, rest)
  | '+' :: rest => (false, rest)
  | rest => (false, rest)

/-- **The 64-bit integer a text spells**: an optional sign and digits. -/
def int64? (s : String) : Option Int64 :=
  let (negative, ds) := sign s.toList
  if ds.isEmpty || !ds.all Char.isDigit then none
  else
    let n := ofDigitsUpTo 0x10000000000000000 ds
    Binary64.int64? (if negative then -(n : Int) else n)

/-- **The machine-sized index a text spells**: an optional plus and digits,
below `2 ^ 64`. -/
def index? (s : String) : Option Nat :=
  let ds := match s.toList with
    | '+' :: rest => rest
    | rest => rest
  if ds.isEmpty || !ds.all Char.isDigit then none
  else
    let n := ofDigitsUpTo 0x10000000000000000 ds
    if n < 0x10000000000000000 then some n else none

/-- The double nearest to `n * 10 ^ e`. A number whose leading digit is
beyond the powers of ten that doubles reach is infinite or zero, whatever
its digits. -/
def toBinary64 (negative : Bool) (n : Nat) (e : Int) : Binary64 :=
  let leading := e + (numeral n).length
  if n = 0 ∨ leading < -400 then .ofMagnitude negative 0
  else if 400 < leading then .ofMagnitude negative Binary64.infinite
  else .ofRatio negative (n * Nat.pow 10 e.toNat) (Nat.pow 10 (-e).toNat)

/-- How many digits of a decimal are kept. A double, and the middle between
two neighbouring ones, have at most 767 digits, so that of the digits
after these it only matters whether one is not zero. -/
def maxDigits : Nat := 800

/-- **The decimal that digits spell** around a point, with as many digits
as matter for the nearest double: the digits after those are left out, or
replaced by a one if they are not all zero. -/
def ofPlaces (ds : List Char) (exponent : Int) : Decimal :=
  let ds := ds.dropWhile (· == '0')
  let kept := ds.take maxDigits
  let left := ds.drop maxDigits
  if left.all (· == '0') then ⟨ofDigits kept, exponent + left.length⟩
  else ⟨ofDigits kept * 10 + 1, exponent + left.length - 1⟩

/-- Where the digits of an exponent stop to count. -/
def maxExponent : Nat := 0x10000

/-- An exponent: the mark, an optional sign and digits, up to the end. The
digits count until what they spell is not below the limit. -/
def exponent? : List Char → Option Int
  | [] => some 0
  | c :: rest =>
    if c = 'e' ∨ c = 'E' then
      let (negative, ds) := sign rest
      if ds.isEmpty || !ds.all Char.isDigit then none
      else
        let e := ofDigitsUpTo maxExponent ds
        some (if negative then -(e : Int) else e)
    else none

/-- A double without its sign: digits with an optional point, at least one
digit in all, and an optional exponent. -/
def unsigned? (negative : Bool) (cs : List Char) : Option Binary64 :=
  let whole := cs.takeWhile Char.isDigit
  let afterWhole := cs.dropWhile Char.isDigit
  let (fraction, rest) := match afterWhole with
    | '.' :: rest => (rest.takeWhile Char.isDigit, rest.dropWhile Char.isDigit)
    | rest => ([], rest)
  if whole.isEmpty && fraction.isEmpty then none
  else (exponent? rest).map fun e =>
    let d := ofPlaces (whole ++ fraction) (e - fraction.length)
    toBinary64 negative d.digits d.exponent

/-- **The double a text spells**: a decimal, or a name of infinity or of
what is not a number, in any case of letters. -/
def binary64? (s : String) : Option Binary64 :=
  let (negative, cs) := sign s.toList
  let word := String.ofList (cs.map Char.toLower)
  if word = "inf" ∨ word = "infinity" then some (.ofMagnitude negative Binary64.infinite)
  else if word = "nan" then some (.ofMagnitude negative 0x7FF8000000000000)
  else unsigned? negative cs

end Decimal

end TagScript
