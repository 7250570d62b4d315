import OrderBench.Number.Decimal

/-!
Numbers of JSON texts. An integer literal that fits 64 bits, signed or not, is kept exactly; all else
is a binary64 number.
-/
namespace OrderBench

inductive Number
  | integer (n : Int)
  | double (x : Binary64)
  deriving DecidableEq

namespace Number

/-- The greatest number of 64 bits. -/
def maxUnsigned : Nat := 18446744073709551615

/-- Whether 64 bits hold `n`, with or without a sign. -/
def Fits (n : Int) : Prop := -9223372036854775808 ≤ n ∧ n ≤ maxUnsigned

instance (n : Int) : Decidable (Fits n) := inferInstanceAs (Decidable (_ ∧ _))

/-- Positional from `1e-5` up to `1e16` with at least one decimal, else scientific with a signed exponent. -/
def doubleText (x : Binary64) : String :=
  let sign := if x.isNegative then "-" else ""
  if x.isZero then sign ++ "0.0"
  else
    let (digits, exponent) := x.shortestDigits
    if exponent < -5 ∨ 16 ≤ exponent then
      let fraction := if digits.length = 1 then [] else '.' :: digits.drop 1
      let power := (if exponent < 0 then "-" else "+") ++ toString exponent.natAbs
      sign ++ String.ofList (digits.take 1 ++ fraction) ++ "e" ++ power
    else if exponent < 0 then
      sign ++ "0." ++ String.ofList (List.replicate (exponent.natAbs - 1) '0' ++ digits)
    else
      let places := exponent.toNat + 1
      let whole := digits.take places ++ List.replicate (places - digits.length) '0'
      let fraction := if digits.length ≤ places then ['0'] else digits.drop places
      sign ++ String.ofList (whole ++ '.' :: fraction)

def text : Number → String
  | .integer n => toString n
  | .double x => doubleText x

def isZero : Number → Bool
  | .integer n => n = 0
  | .double x => x.isZero

/-- The parts of a number literal: digits before the point, after it, and of the exponent. -/
structure Literal where
  negative : Bool
  whole : List Nat
  fraction : List Nat
  exponent : Option (Bool × List Nat)

def ofDigits (digits : List Nat) : Nat := digits.foldl (fun n d => 10 * n + d) 0

/-- Appends digits to `n` while the result fits 64 bits; the second part is what is left of them. -/
def appendDigits (n : Nat) : List Nat → Nat × List Nat
  | [] => (n, [])
  | d :: ds => if 10 * n + d ≤ maxUnsigned then appendDigits (10 * n + d) ds else (n, d :: ds)

def powerOfTen (n : Nat) : Binary64 := .ofNat (Nat.pow 10 n)

/-- Divides by `10 ^ n`, in steps of at most `10 ^ 308`. -/
def scaleDown (x : Binary64) (n : Nat) : Binary64 :=
  if n ≤ 308 then x / powerOfTen n
  else if x.isZero then x
  else scaleDown (x / powerOfTen 308) (n - 308)
termination_by n

/-- `x * 10 ^ exponent`, unless that is too great for a binary64 number. -/
def scale? (x : Binary64) (exponent : Int) : Option Binary64 :=
  if exponent < 0 then some (scaleDown x exponent.natAbs)
  else if 308 < exponent then (if x.isZero then some x else none)
  else
    let scaled := x * powerOfTen exponent.toNat
    if scaled.isInfinite then none else some scaled

/-- A literal read as a binary64 number: as many digits as fit 64 bits are rounded, then scaled by the
power of ten that is left, with a rounding at each step. -/
def Literal.double? (l : Literal) : Option Binary64 :=
  let (head, dropped) := appendDigits 0 l.whole
  let (digits, unread) := appendDigits head l.fraction
  let point : Int := dropped.length - (l.fraction.length - unread.length : Nat)
  let power : Int := match l.exponent with
    | none => 0
    | some (negative, ds) => if negative then -ofDigits ds else ofDigits ds
  (scale? (.ofNat digits) (point + power)).map fun x => if l.negative then -x else x

/-- The number of a literal, if there is one. A minus before zero makes it a binary64 number. -/
def Literal.value? (l : Literal) : Option Number :=
  let n : Int := if l.negative then -ofDigits l.whole else ofDigits l.whole
  if l.fraction = [] ∧ l.exponent = none ∧ Fits n ∧ ¬(l.negative = true ∧ n = 0) then some (.integer n)
  else l.double?.map .double

end Number

end OrderBench
