import OrderBench.Call
import OrderBench.Text.Utf8

/-!
The replies of a server: reading the octets on a connection, which the server closes at their end, as
one response.
-/
namespace OrderBench

inductive TransportFault
  | relativeUrl
  | refused
  | unreachable
  | incomplete
  | invalidVersion
  | invalidStatus
  | invalidHeader
  | invalidLength
  | truncatedBody
  | invalidChunkSize
  | truncatedChunk
  deriving DecidableEq

def TransportFault.message : TransportFault → String
  | .relativeUrl => "client requires absolute-form URIs"
  | .refused => "error trying to connect: tcp connect error: Connection refused (os error 111)"
  | .unreachable => "error trying to connect: tcp connect error: Network is unreachable (os error 101)"
  | .incomplete => "connection closed before message completed"
  | .invalidVersion => "invalid HTTP version parsed"
  | .invalidStatus => "invalid HTTP status-code parsed"
  | .invalidHeader => "invalid HTTP header parsed"
  | .invalidLength => "invalid content-length parsed"
  | .truncatedBody => "error reading a body from connection: end of file before message length reached"
  | .invalidChunkSize =>
    "error reading a body from connection: Invalid chunk size line: missing size digit"
  | .truncatedChunk => "error reading a body from connection: unexpected EOF during chunk size line"

namespace Reply

abbrev Octets := List UInt8

def octets (s : String) : Octets := s.toUTF8.toList

/-- Octets as characters of the same number. -/
def chars (bs : Octets) : List Char := bs.map fun b => Char.ofNat b.toNat

/-- The characters up to a line feed, a carriage return before it left out, and what follows. -/
def line? (bs : Octets) : Option (List Char × Octets) :=
  match bs.dropWhile (· ≠ 10) with
  | _ :: rest =>
    let line := chars (bs.takeWhile (· ≠ 10))
    some (if line.getLast? = some '\r' then line.dropLast else line, rest)
  | [] => none

/-- The status in a line, after a version. -/
def readStatus (line : List Char) : Except TransportFault Nat :=
  match line with
  | ' ' :: a :: b :: c :: rest =>
    let digits := [a, b, c]
    let code := digits.foldl (fun n d => 10 * n + (d.toNat - '0'.toNat)) 0
    if digits.all Char.isDigit && (rest.isEmpty || rest.head? = some ' ') && 100 ≤ code then .ok code
    else .error .invalidStatus
  | _ => .error .invalidStatus

/-- Checks the version in front of a reply. A part of one may be all that has arrived. -/
def readVersion (bs : Octets) : Except TransportFault Octets :=
  let version := bs.take 8
  if version = octets "HTTP/1.1" ∨ version = octets "HTTP/1.0" then .ok (bs.drop 8)
  else if version.length < 8 ∧ version.isPrefixOf (octets "HTTP/1.1") then .error .incomplete
  else .error .invalidVersion

def isNameChar (c : Char) : Bool := c.isAlphanum || "!#$%&'*+-.^_`|~".toList.contains c

def trim (cs : List Char) : List Char :=
  let blank (c : Char) := c == ' ' || c == '\t'
  ((cs.dropWhile blank).reverse.dropWhile blank).reverse

def readHeader (line : List Char) : Except TransportFault (String × String) :=
  let name := line.takeWhile isNameChar
  match line.dropWhile isNameChar with
  | ':' :: value =>
    if name.isEmpty then .error .invalidHeader
    else .ok ((String.ofList name).toLower, String.ofList (trim value))
  | _ => .error .invalidHeader

/-- The headers up to the empty line, within `n` lines. -/
def readHeaders (n : Nat) (bs : Octets) : Except TransportFault (List (String × String) × Octets) :=
  match n, line? bs with
  | 0, _ | _, none => .error .incomplete
  | _, some ([], rest) => .ok ([], rest)
  | n + 1, some (line, rest) => do
    let header ← readHeader line
    let (headers, rest) ← readHeaders n rest
    pure (header :: headers, rest)

def hexValue? (cs : List Char) : Option Nat :=
  let digit? (c : Char) : Option Nat :=
    if c.isDigit then some (c.toNat - '0'.toNat)
    else if 'a' ≤ c.toLower ∧ c.toLower ≤ 'f' then some (c.toLower.toNat - 'a'.toNat + 10)
    else none
  if cs.isEmpty then none else cs.foldlM (fun n c => (digit? c).map (16 * n + ·)) 0

/-- The octets of at most `n` chunks. -/
def readChunks (n : Nat) (bs : Octets) : Except TransportFault Octets :=
  match n, line? bs with
  | 0, _ | _, none => .error .truncatedChunk
  | n + 1, some (line, rest) =>
    match hexValue? (trim (line.takeWhile (· ≠ ';'))) with
    | none => .error .invalidChunkSize
    | some 0 => .ok []
    | some size =>
      if rest.length < size + 2 then .error .truncatedBody
      else (readChunks n (rest.drop (size + 2))).map (rest.take size ++ ·)

def readLength (text : String) : Except TransportFault Nat :=
  if text.isEmpty || !text.toList.all Char.isDigit then .error .invalidLength
  else .ok (text.toList.foldl (fun n d => 10 * n + (d.toNat - '0'.toNat)) 0)

/-- The body of a response: chunks, as many octets as its length says, or all that is left. -/
def readBody (headers : List (String × String)) (bs : Octets) : Except TransportFault Octets := do
  if (headers.lookup "transfer-encoding").map String.toLower = some "chunked" then
    readChunks bs.length bs
  else match headers.lookup "content-length" with
    | some text =>
      let length ← readLength text
      if bs.length < length then .error .truncatedBody else pure (bs.take length)
    | none => pure bs

/-- Reads a response after at most `n` interim ones. Some statuses go without a body. -/
def readWithin (n : Nat) (bs : Octets) : Except TransportFault Response := do
  let rest ← readVersion bs
  match line? rest with
  | none => .error .incomplete
  | some (line, rest) =>
    let status ← readStatus line
    let (headers, rest) ← readHeaders rest.length rest
    if status / 100 = 1 ∧ status ≠ 101 then
      match n with
      | 0 => .error .incomplete
      | n + 1 => readWithin n rest
    else
      let body ← if status = 204 ∨ status = 304 then pure [] else readBody headers rest
      pure ⟨.ofNat status, decodeUtf8 body⟩

def read (bs : Octets) : Except TransportFault Response :=
  if bs.isEmpty then .error .incomplete else readWithin bs.length bs

end Reply

end OrderBench
