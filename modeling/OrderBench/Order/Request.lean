import OrderBench.Json.Value
import OrderBench.Order.Price

/-!
Limit orders as they are sent to the order service.
-/
namespace OrderBench

inductive Side
  | buy
  | sell
  deriving DecidableEq

inductive OrderType
  | limit
  deriving DecidableEq

inductive TimeInForce
  | goodTillCancelled
  deriving DecidableEq

/-- A type whose values are written as fixed words. -/
class Word (α : Type) where
  values : List α
  word : α → String

export Word (word)

instance : Word Side where
  values := [.buy, .sell]
  word
    | .buy => "BUY"
    | .sell => "SELL"

instance : Word OrderType where
  values := [.limit]
  word
    | .limit => "LIMIT"

instance : Word TimeInForce where
  values := [.goodTillCancelled]
  word
    | .goodTillCancelled => "GTC"

structure OrderRequest where
  symbol : String
  orderType : OrderType
  side : Side
  price : Int64
  quantity : Int64
  timeInForce : TimeInForce
  deriving DecidableEq

/-- The quantity of every order, 0.001 BTC in minimal units. -/
def orderQuantity : Int64 := 100000000

namespace OrderRequest

def limit (symbol : String) (side : Side) (price : Int64) : OrderRequest :=
  ⟨symbol, .limit, side, price, orderQuantity, .goodTillCancelled⟩

def toJson (r : OrderRequest) : Json :=
  .object [("symbol", .string r.symbol),
    ("orderType", .string (word r.orderType)),
    ("orderSide", .string (word r.side)),
    ("price", .number (.integer r.price.toInt)),
    ("quantity", .number (.integer r.quantity.toInt)),
    ("tifType", .string (word r.timeInForce))]

def encode (r : OrderRequest) : String := r.toJson.text

end OrderRequest

end OrderBench
