/-!
Binary64 numbers by their bits, with arithmetic that is exact up to one final rounding. Every finite
number is a whole multiple of `2 ^ (-1074)`, the least positive one, so sums, products and quotients
are fractions of naturals in that unit, and rounding is to the nearest representable fraction, a half
going to the even neighbour.
-/
namespace OrderBench

/-- The nearest natural to `num / den`; a half goes to the even neighbour. -/
def roundHalfEven (num den : Nat) : Nat :=
  let floor := num / den
  let twice := 2 * (num % den)
  if twice < den ∨ (twice = den ∧ floor % 2 = 0) then floor else floor + 1

structure Binary64 where
  bits : UInt64
  deriving DecidableEq

namespace Binary64

/-- The bit that marks a negative number. -/
def signBit : Nat := 0x8000000000000000

/-- How many numbers have the same exponent: `2 ^ 52`. -/
def binade : Nat := 0x10000000000000

/-- The bits of infinity; a greater magnitude is not a number. -/
def infinityMagnitude : Nat := 2047 * binade

def one : Nat := 1 <<< 1074

def ofMagnitude (negative : Bool) (magnitude : Nat) : Binary64 :=
  ⟨.ofNat (if negative then signBit + magnitude else magnitude)⟩

def zero : Binary64 := ofMagnitude false 0

def nan : Binary64 := ofMagnitude false (infinityMagnitude + binade / 2)

def infinity (negative : Bool) : Binary64 := ofMagnitude negative infinityMagnitude

variable (x y : Binary64)

def isNegative : Bool := signBit ≤ x.bits.toNat

def magnitude : Nat := x.bits.toNat % signBit

def isNaN : Bool := infinityMagnitude < x.magnitude

def isInfinite : Bool := x.magnitude = infinityMagnitude

def isFinite : Bool := x.magnitude < infinityMagnitude

def isZero : Bool := x.magnitude = 0

def isPositive : Bool := !x.isNegative && !x.isZero && !x.isNaN

/-- The power of two by which the significand is scaled, in units. -/
def shift : Nat := x.magnitude / binade - 1

def significand : Nat :=
  if x.magnitude < binade then x.magnitude else binade + x.magnitude % binade

/-- The absolute value of a finite number, in units. -/
def units : Nat := x.significand <<< x.shift

def signedUnits : Int := if x.isNegative then -x.units else x.units

/-- The number nearest to `num / den` units. The step between neighbours is `2 ^ shift` units there,
and a significand that rounds up to `2 ^ 53` carries into the exponent. -/
def ofUnits (negative : Bool) (num den : Nat) : Binary64 :=
  let shift := (num / den).log2 - 52
  let magnitude := shift * binade + roundHalfEven num (den <<< shift)
  ofMagnitude negative (min magnitude infinityMagnitude)

def ofRatio (negative : Bool) (num den : Nat) : Binary64 := ofUnits negative (num * one) den

def ofNat (n : Nat) : Binary64 := ofRatio false n 1

def neg : Binary64 := ofMagnitude (!x.isNegative) x.magnitude

/-- An exact sum of zero is positive unless both terms are negative zeros. -/
def add : Binary64 :=
  if x.isNaN || y.isNaN then nan
  else if x.isInfinite then (if y.isInfinite && x.isNegative != y.isNegative then nan else x)
  else if y.isInfinite then y
  else
    let sum := x.signedUnits + y.signedUnits
    if sum = 0 then ofMagnitude (x.isNegative && y.isNegative) 0 else ofUnits (sum < 0) sum.natAbs 1

def mul : Binary64 :=
  let negative := x.isNegative != y.isNegative
  if x.isNaN || y.isNaN then nan
  else if x.isInfinite || y.isInfinite then (if x.isZero || y.isZero then nan else infinity negative)
  else ofUnits negative (x.units * y.units) one

def div : Binary64 :=
  let negative := x.isNegative != y.isNegative
  if x.isNaN || y.isNaN || (x.isInfinite && y.isInfinite) || (x.isZero && y.isZero) then nan
  else if x.isInfinite || y.isZero then infinity negative
  else if y.isInfinite then ofMagnitude negative 0
  else ofUnits negative (x.units * one) y.units

instance : Neg Binary64 := ⟨neg⟩
instance : Add Binary64 := ⟨add⟩
instance : Mul Binary64 := ⟨mul⟩
instance : Div Binary64 := ⟨div⟩

/-- The whole part as a count: none below zero or without a value, and at most `limit`. -/
def toCount (limit : Nat) : Nat :=
  if x.isNegative || x.isNaN then 0
  else if x.isInfinite then limit
  else min (x.units / one) limit

/-- The total order of binary64 numbers, as a key: negative numbers downwards, `-0.0` before `0.0`,
and what is not a number beyond the infinities on its side. -/
def orderKey : Int := if x.isNegative then -1 - x.magnitude else x.magnitude

end Binary64

end OrderBench
