import OrderBench.Call

/-!
The outcome of one attempt to place or cancel an order.
-/
namespace OrderBench

inductive Verdict
  | success (orderId : Option String)
  | failure (message : String)
  deriving DecidableEq

/-- One attempt: what was tried, the status of the response or 0, the latency in seconds. -/
structure Attempt where
  kind : RequestKind
  status : UInt16
  time : Binary64
  verdict : Verdict
  deriving DecidableEq

namespace Attempt

def succeeded (a : Attempt) : Bool :=
  match a.verdict with
  | .success _ => true
  | .failure _ => false

def error? (a : Attempt) : Option String :=
  match a.verdict with
  | .success _ => none
  | .failure message => some message

def orderId? (a : Attempt) : Option String :=
  match a.verdict with
  | .success orderId => orderId
  | .failure _ => none

/-- A cancel that found no open order, and so made no call. -/
def nothingToCancel : Attempt := ⟨.cancel, 0, .zero, .failure "no orders available to cancel"⟩

end Attempt

end OrderBench
