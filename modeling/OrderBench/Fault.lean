/-!
The faults that stop a computation, and the arithmetic on counts that can raise them.
-/
namespace OrderBench

inductive Fault
  | divideByZero
  | divideOverflow
  | multiplyOverflow
  | addOverflow
  | tooManyPermits
  deriving DecidableEq

/-- The largest number of permits that a limiter may hold. -/
def maxPermits : Nat := 2305843009213693951

def maxCount : Nat := 18446744073709551615

def Fault.message : Fault → String
  | .divideByZero => "attempt to divide by zero"
  | .divideOverflow => "attempt to divide with overflow"
  | .multiplyOverflow => "attempt to multiply with overflow"
  | .addOverflow => "attempt to add with overflow"
  | .tooManyPermits => s!"a semaphore may not have more than MAX_PERMITS permits ({maxPermits})"

def addCounts (a b : Nat) : Except Fault Nat :=
  if a + b ≤ maxCount then .ok (a + b) else .error .addOverflow

def mulCounts (a b : Nat) : Except Fault Nat :=
  if a * b ≤ maxCount then .ok (a * b) else .error .multiplyOverflow

end OrderBench
