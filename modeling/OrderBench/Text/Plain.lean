/-!
Texts without what a terminal would obey: control characters other than blanks, and escape sequences.
-/
namespace OrderBench

/-- Where a terminal is in an escape sequence. -/
inductive Terminal
  | ground
  | escape
  | intermediate
  /-- After `ESC [`, up to a letter. -/
  | control
  /-- After `ESC ]`, up to a bell. -/
  | systemCommand
  /-- After `ESC P`, up to the letter after which its data begin. -/
  | device
  | deviceParameters
  | deviceIntermediate
  | data
  deriving DecidableEq

namespace Terminal

def isBlankControl (c : Char) : Bool := c == '\t' || c == '\n' || c == '\x0c' || c == '\r'

/-- Whether one of the octets of a character is the one that ends data. -/
def endsData (c : Char) : Bool := (String.utf8EncodeChar c).contains 0x9c

/-- Whether a character is shown. Blanks are shown even inside a short sequence. -/
def shows : Terminal → Char → Bool
  | .ground, c => isBlankControl c || (0x20 ≤ c.toNat && c != '\x7f')
  | .escape, c | .intermediate, c | .control, c => isBlankControl c
  | _, _ => false

def afterEscape (c : Char) : Terminal :=
  match c with
  | '[' => .control
  | ']' => .systemCommand
  | 'P' => .device
  | 'X' | '^' | '_' => .data
  | '\x7f' => .escape
  | c => if c.toNat < 0x20 then .escape else if c.toNat < 0x30 then .intermediate else .ground

def afterDevice (t : Terminal) (c : Char) : Terminal :=
  if c.toNat < 0x20 || c == '\x7f' then t
  else if c.toNat < 0x30 then .deviceIntermediate
  else if c.toNat < 0x40 then
    match t with
    | .device => .deviceParameters
    | .deviceParameters => if c.toNat < 0x3c then t else .data
    | _ => .data
  else .data

/-- The state after a character. Past ASCII only the end of data has an effect. -/
def next (t : Terminal) (c : Char) : Terminal :=
  if c == '\x1b' then .escape
  else if c == '\x18' || c == '\x1a' then .ground
  else if 0x80 ≤ c.toNat then if t = .data ∧ endsData c then .ground else t
  else match t with
    | .ground => .ground
    | .escape => afterEscape c
    | .intermediate => if c.toNat < 0x30 || c == '\x7f' then t else .ground
    | .control => if c.toNat < 0x40 || c == '\x7f' then t else .ground
    | .systemCommand => if c == '\x07' then .ground else t
    | .device | .deviceParameters | .deviceIntermediate => afterDevice t c
    | .data => t

end Terminal

inductive Medium
  | text
  | stream
  deriving DecidableEq

namespace Medium

/-- The state that is taken up after shown characters. A blank inside a sequence ends it in a text; on a
stream the sequence goes on after the blank and the characters that are shown with it. -/
def resume (m : Medium) (t : Terminal) (c : Char) : Terminal :=
  match m with
  | .text => .ground
  | .stream => if 0x80 ≤ c.toNat then .ground else t

/-- The characters that are shown. After a shown one, `running`, all are that need no sequence. -/
def shown (m : Medium) (t : Terminal) (running : Bool) : List Char → List Char
  | [] => []
  | c :: cs =>
    if t.shows c || (running && Terminal.ground.shows c) then c :: m.shown (m.resume t c) true cs
    else m.shown (t.next c) false cs

end Medium

def plainText (m : Medium) (s : String) : String := String.ofList (m.shown .ground false s.toList)

end OrderBench
