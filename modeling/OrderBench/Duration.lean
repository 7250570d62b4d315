import OrderBench.Number.Binary64

/-!
Lengths of time in whole nanoseconds.
-/
namespace OrderBench

structure Duration where
  secs : Nat
  nanos : Nat
  deriving DecidableEq

namespace Duration

def ofNanos (n : Nat) : Duration := ⟨n / 1000000000, n % 1000000000⟩

def toNanos (d : Duration) : Nat := d.secs * 1000000000 + d.nanos

instance : LE Duration where
  le d e := d.toNanos ≤ e.toNanos

instance : Add Duration where
  add d e := ofNanos (d.toNanos + e.toNanos)

@[simp] theorem toNanos_ofNanos (n : Nat) : (ofNanos n).toNanos = n := Nat.div_add_mod' n 1000000000

theorem ofNanos_inj {m n : Nat} : ofNanos m = ofNanos n ↔ m = n := by
  constructor
  · intro h
    rw [← toNanos_ofNanos m, h, toNanos_ofNanos]
  · exact congrArg ofNanos

theorem ofNanos_le_ofNanos {m n : Nat} : ofNanos m ≤ ofNanos n ↔ m ≤ n := by
  change (ofNanos m).toNanos ≤ (ofNanos n).toNanos ↔ m ≤ n
  rw [toNanos_ofNanos, toNanos_ofNanos]

theorem ofNanos_add (m n : Nat) : ofNanos (m + n) = ofNanos m + ofNanos n := by
  change ofNanos (m + n) = ofNanos ((ofNanos m).toNanos + (ofNanos n).toNanos)
  rw [toNanos_ofNanos, toNanos_ofNanos]

/-- The seconds as a binary64 number: the whole seconds and the fraction are rounded, then their sum. -/
def seconds (d : Duration) : Binary64 := .ofNat d.secs + .ofNat d.nanos / .ofNat 1000000000

/-- The digits of `part / 10 ^ places` after the point, without trailing zeros. -/
def fraction (places part : Nat) : String :=
  let digits := (toString (Nat.pow 10 places + part)).toList.drop 1
  let kept := (digits.reverse.dropWhile (· == '0')).reverse
  if kept.isEmpty then "" else "." ++ String.ofList kept

/-- The exact length in the greatest of the units `s`, `ms`, `µs` and `ns` that makes it at least one. -/
def text (d : Duration) : String :=
  if 0 < d.secs then toString d.secs ++ fraction 9 d.nanos ++ "s"
  else if 1000000 ≤ d.nanos then toString (d.nanos / 1000000) ++ fraction 6 (d.nanos % 1000000) ++ "ms"
  else if 1000 ≤ d.nanos then toString (d.nanos / 1000) ++ fraction 3 (d.nanos % 1000) ++ "µs"
  else toString d.nanos ++ "ns"

end Duration

end OrderBench
