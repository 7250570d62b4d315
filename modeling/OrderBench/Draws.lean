/-!
A source of random numbers, and the choices made from them.
-/
namespace OrderBench

structure Draws where
  source : Nat → Nat
  used : Nat := 0

namespace Draws

/-- The numbers of a list, over and over; zeros if there are none. -/
def cyclic (numbers : Array Nat) : Draws where
  source k := numbers[k % numbers.size]?.getD 0

def next (d : Draws) : Nat × Draws := (d.source d.used, { d with used := d.used + 1 })

/-- An odd number is heads. -/
def coin (d : Draws) : Bool × Draws :=
  let (n, d) := d.next
  (n % 2 = 1, d)

end Draws

end OrderBench
