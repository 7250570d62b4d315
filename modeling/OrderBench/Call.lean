import OrderBench.Duration
import OrderBench.Order.Request

/-!
Calls to the order service, and what comes back: a response of any status, or an error when no
response arrives.
-/
namespace OrderBench

inductive RequestKind
  | place
  | cancel
  deriving DecidableEq

def RequestKind.text : RequestKind → String
  | .place => "place"
  | .cancel => "cancel"

inductive Call
  | place (order : OrderRequest)
  | cancel (id : String)
  deriving DecidableEq

def Call.kind : Call → RequestKind
  | .place _ => .place
  | .cancel _ => .cancel

structure Response where
  status : UInt16
  body : String
  deriving DecidableEq

def Response.isOk (r : Response) : Bool := r.status = 200

/-- Why no complete response was read. -/
inductive ApiError
  | timeout (after : Duration)
  | transport (message : String)
  | request (message : String)
  deriving DecidableEq

namespace ApiError

def message : ApiError → String
  | .timeout after => s!"request timed out after {after.text}"
  | .transport message => message
  | .request message => "invalid request: " ++ message

end ApiError

inductive AppError
  | api (e : ApiError)
  | config (message : String)
  | io (message : String)
  | serialization (message : String)
  deriving DecidableEq

def AppError.message : AppError → String
  | .api e => "Order API error: " ++ e.message
  | .config message => "Configuration error: " ++ message
  | .io message => "IO error: " ++ message
  | .serialization message => "Serialization error: " ++ message

/-- What a call comes to, and the nanoseconds that it takes. -/
structure Answer where
  latency : Nat
  outcome : Except ApiError Response

/-- A service: its answer to the `n`-th call of a kind, counted from 1. -/
abbrev Venue := Nat → Call → Answer

structure Tally where
  placed : Nat := 0
  cancelled : Nat := 0

/-- The number of one more call among those of its kind. -/
def Tally.count (t : Tally) : Call → Nat × Tally
  | .place _ => (t.placed + 1, { t with placed := t.placed + 1 })
  | .cancel _ => (t.cancelled + 1, { t with cancelled := t.cancelled + 1 })

end OrderBench
