import OrderBench.Json.Token

/-!
JSON values as trees: reading them from tokens, and their compact text. An object keeps its members
as written; where a name repeats, its last member counts.
-/
namespace OrderBench

inductive Json
  | null
  | boolean (b : Bool)
  | number (n : Number)
  | string (s : String)
  | array (items : List Json)
  | object (members : List (String × Json))

namespace Json

/-- An open array or object around the value that is being read, with what it holds so far, last first. -/
inductive Frame
  | items (read : List Json)
  | member (read : List (String × Json)) (key : String)

/-- What a reader has to see next. -/
inductive Reader
  | value (outer : List Frame)
  | firstItem (outer : List Frame)
  | firstName (outer : List Frame)
  | name (read : List (String × Json)) (outer : List Frame)
  | colon (read : List (String × Json)) (key : String) (outer : List Frame)
  | after (v : Json) (outer : List Frame)
  | failed

/-- Whether one more array or object may be opened. -/
def mayOpen (deepest : Option Nat) (outer : List Frame) : Bool :=
  match deepest with
  | some n => outer.length < n
  | none => true

def beginValue (deepest : Option Nat) (outer : List Frame) : Token → Reader
  | .null => .after .null outer
  | .boolean b => .after (.boolean b) outer
  | .number (some n) => .after (.number n) outer
  | .string (some s) => .after (.string s) outer
  | .beginArray => if mayOpen deepest outer then .firstItem outer else .failed
  | .beginObject => if mayOpen deepest outer then .firstName outer else .failed
  | _ => .failed

/-- One token read, with at most `deepest` arrays and objects around a value. -/
def Reader.next (deepest : Option Nat) (r : Reader) (t : Token) : Reader :=
  match r, t with
  | .value outer, t => beginValue deepest outer t
  | .firstItem outer, .endArray => .after (.array []) outer
  | .firstItem outer, t => beginValue deepest (.items [] :: outer) t
  | .firstName outer, .endObject => .after (.object []) outer
  | .firstName outer, .string (some s) => .colon [] s outer
  | .name read outer, .string (some s) => .colon read s outer
  | .colon read key outer, .colon => .value (.member read key :: outer)
  | .after v (.items read :: outer), .comma => .value (.items (v :: read) :: outer)
  | .after v (.items read :: outer), .endArray => .after (.array (v :: read).reverse) outer
  | .after v (.member read key :: outer), .comma => .name ((key, v) :: read) outer
  | .after v (.member read key :: outer), .endObject => .after (.object ((key, v) :: read).reverse) outer
  | _, _ => .failed

/-- The greatest nesting of arrays and objects in a value that is read. -/
def deepest : Nat := 127

/-- The value that the tokens spell, all of them and no more. -/
def ofTokens? (ts : List Token) : Option Json :=
  match ts.foldl (Reader.next (some deepest)) (.value []) with
  | .after v [] => some v
  | _ => none

def parse? (text : String) : Option Json := ofTokens? (tokens text.toList)

/-- What is left after one value that nobody looks at: of any depth, its strings and numbers only
well formed. -/
def skip (r : Reader) (ts : List Token) : Option (List Token) :=
  match r, ts with
  | .after _ [], ts => some ts
  | _, [] => none
  | r, .number none :: ts => skip (r.next none (.number (some (.integer 0)))) ts
  | r, .string none :: ts => skip (r.next none (.string (some ""))) ts
  | r, t :: ts => skip (r.next none t) ts

theorem length_skip {r : Reader} {ts rest : List Token} (h : skip r ts = some rest) :
    rest.length ≤ ts.length := by
  fun_induction skip r ts <;> simp_all <;> omega

/-- The last member of that name. -/
def get? (name : String) (members : List (String × Json)) : Option Json :=
  (members.reverse.find? (·.1 = name)).map (·.2)

def hexDigit (n : Nat) : Char := Char.ofNat (if n < 10 then '0'.toNat + n else 'a'.toNat + (n - 10))

def escape (c : Char) : List Char :=
  match c with
  | '"' => ['\\', '"']
  | '\\' => ['\\', '\\']
  | '\x08' => ['\\', 'b']
  | '\t' => ['\\', 't']
  | '\n' => ['\\', 'n']
  | '\x0c' => ['\\', 'f']
  | '\r' => ['\\', 'r']
  | c =>
    if c.toNat < 0x20 then ['\\', 'u', '0', '0', hexDigit (c.toNat / 16), hexDigit (c.toNat % 16)]
    else [c]

/-- A string literal in which only quotes, backslashes and control characters are escaped. -/
def quote (s : String) : String := String.ofList ('"' :: s.toList.flatMap escape ++ ['"'])

mutual

/-- The text without blanks, members in the order in which they are held. -/
def text : Json → String
  | null => "null"
  | boolean b => if b then "true" else "false"
  | number n => n.text
  | string s => quote s
  | array items => "[" ++ ",".intercalate (itemTexts items) ++ "]"
  | object members => "\x7b" ++ ",".intercalate (memberTexts members) ++ "\x7d"

def itemTexts : List Json → List String
  | [] => []
  | v :: vs => v.text :: itemTexts vs

def memberTexts : List (String × Json) → List String
  | [] => []
  | (name, v) :: ms => (quote name ++ ":" ++ v.text) :: memberTexts ms

end

/-- Puts a member in its place by name, instead of one with the same name. -/
def insertMember (name : String) (v : Json) : List (String × Json) → List (String × Json)
  | [] => [(name, v)]
  | (other, w) :: ms =>
    if name < other then (name, v) :: (other, w) :: ms
    else if name = other then (name, v) :: ms
    else (other, w) :: insertMember name v ms

mutual

/-- The same value with the members of each object sorted, each name once. -/
def sorted : Json → Json
  | array items => .array (sortedItems items)
  | object members => .object (sortedMembers [] members)
  | v => v

def sortedItems : List Json → List Json
  | [] => []
  | v :: vs => v.sorted :: sortedItems vs

def sortedMembers (placed : List (String × Json)) : List (String × Json) → List (String × Json)
  | [] => placed
  | (name, v) :: ms => sortedMembers (insertMember name v.sorted placed) ms

end

/-- The text by which a value is shown: compact, members sorted by name. -/
def compact (v : Json) : String := v.sorted.text

end Json

end OrderBench
