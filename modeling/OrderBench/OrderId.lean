import OrderBench.Json.Value

/-!
The order id in the response to a placement: `data.orderId` of its JSON envelope.
-/
namespace OrderBench

inductive EnvelopeFault
  | invalidJson (text : String)
  | notObject
  | unexpectedData (data : Json)

/-- The words for a fault. What is wrong with a text that is not JSON is the complaint of whoever reads it. -/
def EnvelopeFault.message (complaint : String → String) : EnvelopeFault → String
  | .invalidJson text => complaint text
  | .notObject => "response is not a JSON object"
  | .unexpectedData data => "unexpected data field: " ++ data.compact

/-- A number other than zero and a string other than the empty one are ids. -/
def orderIdOf : Option Json → Option String
  | some (.number n) => if n.isZero then none else some n.text
  | some (.string s) => if s.isEmpty then none else some s
  | _ => none

/-- The id in an envelope. An envelope without data has none; data that is not an object is a fault. -/
def orderIdIn : Json → Except EnvelopeFault (Option String)
  | .object members =>
    match Json.get? "data" members with
    | none => .ok none
    | some (.object data) => .ok (orderIdOf (Json.get? "orderId" data))
    | some other => .error (.unexpectedData other)
  | _ => .error .notObject

def orderId (body : String) : Except EnvelopeFault (Option String) :=
  match Json.parse? body with
  | some v => orderIdIn v
  | none => .error (.invalidJson body)

end OrderBench
