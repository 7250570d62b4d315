import OrderBench.Draws
import OrderBench.Journal
import OrderBench.OpenOrders

/-!
A desk sends orders for one symbol. A request has two halves: a call is made up and entered in the
journal, and later its outcome is settled into an attempt, with its effect on the open orders.
-/
namespace OrderBench

/-- What a task does. A mixed one tosses a coin, and cancels on heads if there is an open order. -/
inductive Task
  | place
  | cancel
  | mixed
  deriving DecidableEq

structure Desk where
  symbol : String
  openOrders : OpenOrders := .empty
  draws : Draws
  journal : Journal := []

/-- Response bodies are cut to this many characters in messages. -/
def maxBodyLength : Nat := 200

def cutBody (body : String) : String := String.ofList (body.toList.take maxBodyLength)

namespace Desk

variable (d : Desk)

def note (e : Entry) : Desk := { d with journal := e :: d.journal }

/-- A side and a price that are not given are drawn, in this order. -/
def draft (side : Option Side) (price : Option Int64) : OrderRequest × Desk :=
  let (side, draws) := match side with
    | some side => (side, d.draws)
    | none => match d.draws.coin with
      | (heads, draws) => (if heads then .buy else .sell, draws)
  let (price, draws) := match price with
    | some price => (price, draws)
    | none => match draws.next with
      | (draw, draws) => (randomPrice (tickSize d.symbol) draw, draws)
  (.limit d.symbol side price, { d with draws })

def place (time : Nat) (side : Option Side) (price : Option Int64) : Call × Desk :=
  let (order, d) := d.draft side price
  (.place order, d.note (.called time (.place order)))

/-- Cancels the given order, else the oldest open one. An empty id counts as none given. -/
def cancel (time : Nat) (id : Option String) : Option Call × Desk :=
  match id.filter (!·.isEmpty) with
  | some id => (some (.cancel id), d.note (.called time (.cancel id)))
  | none => match d.openOrders.take? with
    | some (id, openOrders) =>
      let d := { d with openOrders }
      (some (.cancel id), (d.note (.taken id)).note (.called time (.cancel id)))
    | none => (none, d)

/-- The call of a task, none if it finds no order to cancel. -/
def begin (time : Nat) (task : Task) : Option Call × Desk :=
  let placement (d : Desk) := match d.place time none none with
    | (call, d) => (some call, d)
  match task with
  | .place => placement d
  | .cancel => d.cancel time none
  | .mixed =>
    let (heads, draws) := d.draws.coin
    let d := { d with draws }
    if heads && !d.openOrders.isEmpty then d.cancel time none else placement d

def register (id : String) : Desk :=
  match d.openOrders.register? id with
  | some openOrders => { d with openOrders }.note (.registered id)
  | none => d.note (.refused id)

def pop : Option String × Desk :=
  match d.openOrders.take? with
  | some (id, openOrders) => (some id, { d with openOrders }.note (.taken id))
  | none => (none, d)

def errorMessage : ApiError → String
  | .timeout _ => "request timed out"
  | error => "exception: " ++ error.message

def statusFailure (r : Response) : Verdict := .failure s!"HTTP {r.status}: {cutBody r.body}"

/-- Judges the response to a call. Only a placement looks at the body, and an id in it is registered. -/
def judge (call : Call) (r : Response) : Verdict × Desk :=
  if !r.isOk then (statusFailure r, d)
  else match call with
    | .cancel id => (.success (some id), d)
    | .place _ => match orderId r.body with
      | .ok (some id) => (.success (some id), d.register id)
      | .ok none => (.success none, d)
      | .error fault =>
        (.failure ("failed to parse response: " ++ cutBody r.body), d.note (.unreadable fault))

def settle (call : Call) (answer : Answer) : Attempt × Desk :=
  let time := (Duration.ofNanos answer.latency).seconds
  match answer.outcome with
  | .error e => (⟨call.kind, 0, time, .failure (errorMessage e)⟩, d.note (.failed call.kind e))
  | .ok r => match d.judge call r with
    | (verdict, d) => (⟨call.kind, r.status, time, verdict⟩, d)

end Desk

end OrderBench
