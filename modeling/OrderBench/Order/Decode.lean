import OrderBench.Order.Request
import OrderBench.Text.Quoted

/-!
Reading orders, and the words in them, from JSON text. Tokens are read from left to right and the
first fault found is the one reported. Members with other names are skipped unread.
-/
namespace OrderBench

inductive Expected
  | string
  | integer
  | unit
  | order
  deriving DecidableEq

inductive Found
  | null
  | boolean (b : Bool)
  | number (n : Number)
  | string (s : String)
  | array
  | object
  deriving DecidableEq

inductive DecodeError
  /-- The text is not JSON, or has an array, object or number of a shape that no reader asks for. -/
  | malformed
  | missingField (name : String)
  | duplicateField (name : String)
  | unknownWord (word : String) (known : List String)
  | unexpected (found : Found) (expected : Expected)
  | outOfRange (n : Int)
  | tooShort (length : Nat)
  deriving DecidableEq

def Expected.text : Expected → String
  | .string => "a string"
  | .integer => "i64"
  | .unit => "unit"
  | .order => "struct PlaceOrderRequest"

def Found.text : Found → String
  | .null => "null"
  | .boolean b => s!"boolean `{b}`"
  | .number (.integer n) => s!"integer `{n}`"
  | .number (.double x) => s!"floating point `{Number.doubleText x}`"
  | .string s => "string " ++ quoteText s
  | .array => "sequence"
  | .object => "map"

/-- The text of a fault in the data; malformed text has none. -/
def DecodeError.message? : DecodeError → Option String
  | .malformed => none
  | .missingField name => some s!"missing field `{name}`"
  | .duplicateField name => some s!"duplicate field `{name}`"
  | .unknownWord word known =>
    some (s!"unknown variant `{word}`, expected " ++ " or ".intercalate (known.map fun k => s!"`{k}`"))
  | .unexpected found expected => some s!"invalid type: {found.text}, expected {expected.text}"
  | .outOfRange n => some s!"invalid value: integer `{n}`, expected i64"
  | .tooShort length =>
    some s!"invalid length {length}, expected struct PlaceOrderRequest with 6 elements"

namespace Decode

/-- The fault of tokens that do not begin with what was expected. -/
def mismatch (expected : Expected) : List Token → DecodeError
  | .null :: _ => .unexpected .null expected
  | .boolean b :: _ => .unexpected (.boolean b) expected
  | .number (some n) :: _ => .unexpected (.number n) expected
  | .string (some s) :: _ => .unexpected (.string s) expected
  | .beginArray :: _ => .unexpected .array expected
  | .beginObject :: _ => .unexpected .object expected
  | _ => .malformed

def string : List Token → Except DecodeError (String × List Token)
  | .string (some s) :: ts => .ok (s, ts)
  | ts => .error (mismatch .string ts)

def integer : List Token → Except DecodeError (Int64 × List Token)
  | .number (some (.integer n)) :: ts => if IsPrice n then .ok (.ofInt n, ts) else .error (.outOfRange n)
  | ts => .error (mismatch .integer ts)

variable {α : Type} [Word α]

def findWord (s : String) : Except DecodeError α :=
  match (Word.values (α := α)).find? (OrderBench.word · = s) with
  | some a => .ok a
  | none => .error (.unknownWord s ((Word.values (α := α)).map OrderBench.word))

/-- A word is a string, or an object whose only member has that name and the value `null`. -/
def word : List Token → Except DecodeError (α × List Token)
  | .string (some s) :: ts => (findWord s).map (·, ts)
  | .beginObject :: .string (some s) :: ts =>
    match findWord s, ts with
    | .error e, _ => .error e
    | .ok a, .colon :: .null :: .endObject :: ts => .ok (a, ts)
    | .ok _, .colon :: .null :: _ => .error .malformed
    | .ok _, .colon :: ts => .error (mismatch .unit ts)
    | .ok _, _ => .error .malformed
  | _ => .error .malformed

inductive Field
  | symbol
  | orderType
  | side
  | price
  | quantity
  | timeInForce
  deriving DecidableEq

def Field.all : List Field := [.symbol, .orderType, .side, .price, .quantity, .timeInForce]

def Field.name : Field → String
  | .symbol => "symbol"
  | .orderType => "orderType"
  | .side => "orderSide"
  | .price => "price"
  | .quantity => "quantity"
  | .timeInForce => "tifType"

/-- The fields that were read so far. -/
structure Draft where
  symbol : Option String := none
  orderType : Option OrderType := none
  side : Option Side := none
  price : Option Int64 := none
  quantity : Option Int64 := none
  timeInForce : Option TimeInForce := none

def Draft.has (d : Draft) : Field → Bool
  | .symbol => d.symbol.isSome
  | .orderType => d.orderType.isSome
  | .side => d.side.isSome
  | .price => d.price.isSome
  | .quantity => d.quantity.isSome
  | .timeInForce => d.timeInForce.isSome

def Draft.read (d : Draft) (f : Field) (ts : List Token) : Except DecodeError (Draft × List Token) :=
  match f with
  | .symbol => (string ts).map fun (v, ts) => ({ d with symbol := some v }, ts)
  | .orderType => (word ts).map fun (v, ts) => ({ d with orderType := some v }, ts)
  | .side => (word ts).map fun (v, ts) => ({ d with side := some v }, ts)
  | .price => (integer ts).map fun (v, ts) => ({ d with price := some v }, ts)
  | .quantity => (integer ts).map fun (v, ts) => ({ d with quantity := some v }, ts)
  | .timeInForce => (word ts).map fun (v, ts) => ({ d with timeInForce := some v }, ts)

def Field.need {β : Type} (f : Field) (v : Option β) : Except DecodeError β :=
  v.elim (.error (.missingField f.name)) .ok

/-- The order, if all fields were read; else the first one missing. -/
def Draft.complete (d : Draft) : Except DecodeError OrderRequest := do
  let symbol ← Field.symbol.need d.symbol
  let orderType ← Field.orderType.need d.orderType
  let side ← Field.side.need d.side
  let price ← Field.price.need d.price
  let quantity ← Field.quantity.need d.quantity
  let timeInForce ← Field.timeInForce.need d.timeInForce
  pure { symbol, orderType, side, price, quantity, timeInForce }

/-- What follows the name of a member: its colon and its value. -/
def memberValue (d : Draft) (name : String) (ts : List Token) : Except DecodeError (Draft × List Token) :=
  match Field.all.find? (·.name = name), ts with
  | some f, ts =>
    if d.has f then .error (.duplicateField name)
    else match ts with
      | .colon :: ts => d.read f ts
      | _ => .error .malformed
  | none, .colon :: ts =>
    match Json.skip (.value []) ts with
    | some ts => .ok (d, ts)
    | none => .error .malformed
  | none, _ => .error .malformed

theorem length_string {ts rest : List Token} {s : String} (h : string ts = .ok (s, rest)) :
    rest.length < ts.length := by
  unfold string at h
  split at h <;> simp_all

theorem length_integer {ts rest : List Token} {n : Int64} (h : integer ts = .ok (n, rest)) :
    rest.length < ts.length := by
  unfold integer at h
  repeat' split at h
  all_goals simp_all

theorem length_word {ts rest : List Token} {a : α} (h : word ts = .ok (a, rest)) :
    rest.length < ts.length := by
  unfold word at h
  split at h
  · next s ts =>
    cases hf : findWord (α := α) s <;> simp_all [Except.map]
  · split at h <;> simp_all
    omega
  · simp at h

theorem length_read {d e : Draft} {f : Field} {ts rest : List Token} (h : d.read f ts = .ok (e, rest)) :
    rest.length < ts.length := by
  cases f <;> simp only [Draft.read, Except.map] at h <;> split at h <;> cases h
  · exact length_string ‹_›
  · exact length_word ‹_›
  · exact length_word ‹_›
  · exact length_integer ‹_›
  · exact length_integer ‹_›
  · exact length_word ‹_›

theorem length_memberValue {d e : Draft} {name : String} {ts rest : List Token}
    (h : memberValue d name ts = .ok (e, rest)) : rest.length ≤ ts.length := by
  unfold memberValue at h
  split at h
  · split at h
    · cases h
    · split at h
      · have := length_read h
        simp
        omega
      · cases h
  · split at h
    · next hs =>
      cases h
      have := Json.length_skip hs
      simp
      omega
    · cases h
  · cases h

/-- The members of an order from the next name on, up to its brace. -/
def members (d : Draft) (ts : List Token) : Except DecodeError (Draft × List Token) :=
  match ts with
  | .string (some name) :: ts =>
    match h : memberValue d name ts with
    | .error e => .error e
    | .ok (d, .endObject :: rest) => .ok (d, rest)
    | .ok (d, .comma :: rest) =>
      have := length_memberValue h
      members d rest
    | .ok _ => .error .malformed
  | _ => .error .malformed
termination_by ts.length
decreasing_by
  simp only [List.length_cons] at this ⊢
  omega

/-- The remaining fields of an order that is written as an array, each after its comma. -/
def elements (d : Draft) : List Field → List Token → Except DecodeError (Draft × List Token)
  | [], .endArray :: ts => .ok (d, ts)
  | f :: fs, .comma :: ts => do
    let (d, ts) ← d.read f ts
    elements d fs ts
  | f :: fs, .endArray :: _ => .error (.tooShort (Field.all.length - (f :: fs).length))
  | _, _ => .error .malformed

/-- An order is an object, or the array of its fields. -/
def order (ts : List Token) : Except DecodeError (OrderRequest × List Token) := do
  let (d, ts) ← match ts with
    | .beginObject :: .endObject :: ts => .ok ({}, ts)
    | .beginObject :: ts => members {} ts
    | .beginArray :: .endArray :: _ => .error (.tooShort 0)
    | .beginArray :: ts => do
      let (d, ts) ← Draft.read {} .symbol ts
      elements d Field.all.tail ts
    | ts => .error (mismatch .order ts)
  pure (← d.complete, ts)

/-- Reads a text that holds one value and nothing else. -/
def whole {β : Type} (read : List Token → Except DecodeError (β × List Token)) (text : String) :
    Except DecodeError β := do
  match ← read (tokens text.toList) with
  | (v, []) => .ok v
  | _ => .error .malformed

end Decode

def OrderRequest.decode (text : String) : Except DecodeError OrderRequest := Decode.whole Decode.order text

def decodeWord {α : Type} [Word α] (text : String) : Except DecodeError α := Decode.whole Decode.word text

end OrderBench
