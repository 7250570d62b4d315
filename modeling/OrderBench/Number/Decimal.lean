import OrderBench.Number.Binary64

/-!
Decimal texts of binary64 numbers: the shortest digits that read back, and fixed-point text.
-/
namespace OrderBench

namespace Binary64

/-- `10 ^ 324`. -/
def scale : Nat := Nat.pow 10 324

/-- Whether `d * 10 ^ (k - 324)` rounds to `x`. The reals that do so lie within half a step on each
side, a quarter below a power of two, with the ends included for an even significand; all is
measured in quarter units times `10 ^ 324`. -/
def readsAs (x : Binary64) (k d : Nat) : Bool :=
  let step := 1 <<< x.shift
  let below := if x.magnitude % binade = 0 && 1 < x.magnitude / binade then step else 2 * step
  let point := d * Nat.pow 10 k * 4 * one
  let low := (4 * x.units - below) * scale
  let high := (4 * x.units + 2 * step) * scale
  if x.significand % 2 = 0 then low ≤ point && point ≤ high else low < point && point < high

/-- The point of the grid `10 ^ (k - 324)` nearest to `x`, if it reads as `x`. -/
def nearestDigits? (x : Binary64) (k : Nat) : Option Nat :=
  let value := x.units * scale
  let grid := Nat.pow 10 k * one
  let floor := value / grid
  match x.readsAs k floor, x.readsAs k (floor + 1) with
  | true, true => some (roundHalfEven value grid)
  | true, false => some floor
  | false, true => some (floor + 1)
  | false, false => none

/-- The first of the grids `10 ^ (k - 324)`, `10 ^ (k - 1 - 324)`, … that has a point reading as `x`. -/
def coarsestDigits (x : Binary64) : Nat → Nat × Nat
  | 0 => ((x.nearestDigits? 0).getD 0, 0)
  | k + 1 => match x.nearestDigits? (k + 1) with
    | some d => (d, k + 1)
    | none => x.coarsestDigits k

/-- The fewest digits that read as the finite nonzero `x`, nearest to it among those, and the decimal
exponent of the first digit. -/
def shortestDigits (x : Binary64) : List Char × Int :=
  let (d, k) := x.coarsestDigits 633
  let digits := (toString d).toList
  (digits, (k : Int) - 325 + digits.length)

/-- Two decimals of the exact value, a half going to the even hundredth. -/
def toFixed2 (x : Binary64) : String :=
  if x.isNaN then "NaN"
  else
    let sign := if x.isNegative then "-" else ""
    if x.isInfinite then sign ++ "inf"
    else
      let hundredths := roundHalfEven (x.units * 100) one
      let rest := hundredths % 100
      sign ++ toString (hundredths / 100) ++ "." ++ toString (rest / 10) ++ toString (rest % 10)

end Binary64

end OrderBench
