import OrderBench.Http.Reply
import OrderBench.Http.Request

/-!
Sending requests over a network, and the order service that is met there.
-/
namespace OrderBench

/-- What comes of a connection. A server sends octets and closes, or it never answers. -/
inductive Network
  | unreachable
  | refused
  | serving (serve : HttpRequest → Option (List UInt8))
  deriving Inhabited

/-- The exchange of one request for one response. Only an absolute URL says where to connect. -/
def Network.exchange (n : Network) (timeout : Duration) (r : HttpRequest) : Except ApiError Response :=
  let fault (f : TransportFault) : ApiError := .transport f.message
  if r.uri.origin.isNone then .error (fault .relativeUrl)
  else match n with
    | .unreachable => .error (fault .unreachable)
    | .refused => .error (fault .refused)
    | .serving serve => match serve r with
      | none => .error (.timeout timeout)
      | some octets => (Reply.read octets).mapError fault

namespace Endpoint

variable (e : Endpoint) (n : Network) (timeout : Duration)

def send (call : Call) : Except ApiError Response :=
  match e.request call with
  | .error f => .error (.request f.message)
  | .ok r => n.exchange timeout r

/-- The endpoint as a service that answers at once. -/
def venue : Venue := fun _ call => ⟨0, e.send n timeout call⟩

end Endpoint

end OrderBench
