import OrderBench.Http.Uri
import OrderBench.Settings

/-!
The requests that calls become: placements are posted to the collection of orders, a cancel deletes
the order with its id.
-/
namespace OrderBench

/-- An order service at a URL, as one user sees it. -/
structure Endpoint where
  baseUrl : String
  userId : Int64

structure HttpRequest where
  method : String
  uri : Uri
  headers : List (String × String)
  body : String
  deriving DecidableEq

namespace Endpoint

def opening (url : String) (userId : Int64) : Endpoint := ⟨trimSlashes url, userId⟩

variable (e : Endpoint)

def ordersUrl : String := e.baseUrl ++ "/api/orders"

def url : Call → String
  | .place _ => e.ordersUrl
  | .cancel id => e.ordersUrl ++ "/" ++ id

/-- The request for a call. Its URL is composed as it stands, and need not be one. -/
def request (call : Call) : Except UriFault HttpRequest := do
  let uri ← Uri.parse (e.url call)
  let userId := ("userid", toString e.userId.toInt)
  pure <| match call with
    | .place order => ⟨"POST", uri, [("content-type", "application/json"), userId], order.encode⟩
    | .cancel _ => ⟨"DELETE", uri, [userId], ""⟩

end Endpoint

namespace HttpRequest

variable (r : HttpRequest)

def line : String := s!"{r.method} {r.uri.target} HTTP/1.1"

/-- The part of an authority after the user. -/
def hostOf (authority : String) : String :=
  String.ofList (authority.toList.reverse.takeWhile (· ≠ '@')).reverse

def wireHeaders : List (String × String) :=
  let length := if r.body.isEmpty then [] else [("content-length", toString r.body.utf8ByteSize)]
  let host := r.uri.origin.toList.map fun (_, authority) => ("host", hostOf authority)
  (length ++ host ++ r.headers).mergeSort fun a b => a.1 ≤ b.1

end HttpRequest

end OrderBench
