/-!
# Double-precision numbers as words

A script's fractional numbers are doubles. The library holds a double as
its 64-bit word and computes on it in exact integer arithmetic: a word
splits into a sign and a *magnitude*, the low 63 bits, and the magnitudes
of the finite doubles are ordered as the doubles themselves are. Numeric
comparison is therefore comparison of signed magnitudes, with the words
that are not numbers set aside.

Only three operations round – reading a quotient (`ofRatio`), and the
product and quotient of two doubles built on it – and all three round to
the nearest double, a tie going to the even one.
-/

namespace TagScript

/-- **A double**, as its word. Two doubles are the same `Binary64` exactly
when they are the same word; numeric equality is `Binary64.numEq`. -/
structure Binary64 where
  /-- Sign, exponent and fraction, from the highest bit down. -/
  bits : UInt64
  deriving DecidableEq, Repr

namespace Binary64

/-- The magnitude of infinity; greater magnitudes are not numbers. -/
def infinite : Nat := 0x7FF0000000000000

/-- The low 63 bits. -/
def magnitude (x : Binary64) : Nat := x.bits.toNat % 0x8000000000000000

/-- Whether the sign bit is set. -/
def isNegative (x : Binary64) : Bool := 0x8000000000000000 ≤ x.bits.toNat

/-- The double of a sign and a magnitude. -/
def ofMagnitude (negative : Bool) (magnitude : Nat) : Binary64 :=
  ⟨UInt64.ofNat (if negative then 0x8000000000000000 + magnitude else magnitude)⟩

/-- Whether the word is not a number. -/
def isNaN (x : Binary64) : Bool := infinite < x.magnitude

/-- Whether the double is neither infinite nor something else than a
number. -/
def isFinite (x : Binary64) : Bool := x.magnitude < infinite

/-- Whether the double is one of the two zeros. -/
def isZero (x : Binary64) : Bool := x.magnitude = 0

/-- **The place of a double among the doubles**: its signed magnitude. The
two zeros share a place. -/
def place (x : Binary64) : Int := if x.isNegative then -x.magnitude else x.magnitude

/-- **Numeric comparison**: by place, and undefined where an operand is not
a number. -/
def compare? (x y : Binary64) : Option Ordering :=
  if x.isNaN || y.isNaN then none else some (compare x.place y.place)

/-- Numeric equality: the zeros are equal, and what is not a number equals
nothing. -/
def numEq (x y : Binary64) : Bool := x.compare? y == some .eq

/-! ## The exact value -/

/-- A finite magnitude is `significand * 2 ^ exponent`. -/
def significand (x : Binary64) : Nat :=
  if x.magnitude / 0x10000000000000 = 0 then x.magnitude
  else 0x10000000000000 + x.magnitude % 0x10000000000000

/-- The exponent that belongs to `significand`. -/
def exponent (x : Binary64) : Int :=
  if x.magnitude / 0x10000000000000 = 0 then -1074
  else (x.magnitude / 0x10000000000000 : Nat) - 1075

/-- The absolute value of a finite double as a quotient. -/
def ratio (x : Binary64) : Nat × Nat :=
  (x.significand * Nat.pow 2 x.exponent.toNat, Nat.pow 2 (-x.exponent).toNat)

/-- The integral part of a finite double, cut off towards zero. -/
def integralPart (x : Binary64) : Int :=
  let whole := x.ratio.1 / x.ratio.2
  if x.isNegative then -whole else whole

/-- Whether a finite double has no fractional part. -/
def isIntegral (x : Binary64) : Bool := x.ratio.1 % x.ratio.2 = 0

/-- An integer as a 64-bit integer, if it is one. -/
def int64? (n : Int) : Option Int64 :=
  if -0x8000000000000000 ≤ n ∧ n < 0x8000000000000000 then some (Int64.ofInt n) else none

/-- **The 64-bit integer a double is**, if it is one. -/
def toInt64? (x : Binary64) : Option Int64 :=
  if x.isFinite && x.isIntegral then int64? x.integralPart else none

/-- The 64-bit integer that is left of a double when its fraction is cut
off. -/
def truncate? (x : Binary64) : Option Int64 :=
  if x.isFinite then int64? x.integralPart else none

/-! ## Rounding -/

/-- A quotient rounded to the nearest integer, a tie to the even one. -/
def roundDiv (num den : Nat) : Nat :=
  let q := num / den
  let r := num % den
  if 2 * r < den then q
  else if den < 2 * r then q + 1
  else if q % 2 = 0 then q else q + 1

/-- A power of two below the quotient, or at most one above it. -/
def binaryScale (num den : Nat) : Int := (num.log2 : Int) - den.log2

/-- The unit in which a positive quotient is rounded: with it as
exponent the significand has 53 bits, unless the double is subnormal. -/
def unitExponent (num den : Nat) : Int :=
  let e := binaryScale num den - 52
  let quotient := num * Nat.pow 2 (-e).toNat / (den * Nat.pow 2 e.toNat)
  let e := if quotient < 0x10000000000000 then e - 1 else e
  max e (-1074)

/-- **The double nearest to a quotient**, a tie going to the even one.
Rounding up over a power of two carries into the exponent by itself,
because magnitudes of neighbouring doubles are neighbours. -/
def ofRatio (negative : Bool) (num den : Nat) : Binary64 :=
  if num = 0 then ofMagnitude negative 0
  else
    let e := unitExponent num den
    let significand := roundDiv (num * Nat.pow 2 (-e).toNat) (den * Nat.pow 2 e.toNat)
    ofMagnitude negative (min infinite ((e + 1074).toNat * 0x10000000000000 + significand))

/-- The double nearest to an integer. -/
def ofInt (n : Int) : Binary64 := ofRatio (n < 0) n.natAbs 1

/-- The rounded product of two finite doubles. -/
def mul (x y : Binary64) : Binary64 :=
  ofRatio (x.isNegative != y.isNegative) (x.ratio.1 * y.ratio.1) (x.ratio.2 * y.ratio.2)

/-- The rounded quotient of a finite double by a finite one that is not
zero. -/
def div (x y : Binary64) : Binary64 :=
  ofRatio (x.isNegative != y.isNegative) (x.ratio.1 * y.ratio.2) (x.ratio.2 * y.ratio.1)

/-! ## Small laws -/

/-- Where two doubles compare, the comparison turns around with them. -/
theorem compare?_swap (x y : Binary64) : (x.compare? y).map Ordering.swap = y.compare? x := by
  simp only [compare?, Bool.or_comm y.isNaN]
  split
  · rfl
  · have h : (compare x.place y.place).swap = compare y.place x.place :=
      (Std.OrientedOrd.eq_swap).symm
    simp [h]

example : ofRatio false 1 10 = ⟨0x3FB999999999999A⟩ := by decide +kernel
example : ofInt 9007199254740993 = ⟨0x4340000000000000⟩ := by decide +kernel
example : ofRatio false 1 (2 ^ 1075) = ⟨0⟩ ∧ ofRatio false 3 (2 ^ 1075) = ⟨2⟩ := by decide +kernel
example : ofRatio true (2 ^ 1024) 1 = ⟨0xFFF0000000000000⟩ := by decide +kernel
example : toInt64? ⟨0xC3E0000000000000⟩ = some Int64.minValue := by decide +kernel

end Binary64

end TagScript
