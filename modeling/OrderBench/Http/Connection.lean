import OrderBench.Http.Network
import Std.Async.DNS
import Std.Async.TCP
import Std.Async.Timer

/-!
Exchanges over TCP, each on a connection of its own.
-/
namespace OrderBench

/-- The request as it is sent. The server is asked to close the connection after its reply. -/
def HttpRequest.octets (r : HttpRequest) : ByteArray :=
  let headers := (r.wireHeaders ++ [("connection", "close")]).map fun (name, value) => s!"{name}: {value}"
  ("\r\n".intercalate (r.line :: headers ++ ["", ""]) ++ r.body).toUTF8

/-- The host that an authority names, and the number of the service there: 80 if none is given. -/
def HttpRequest.peer (authority : String) : String × UInt16 :=
  let cs := (hostOf authority).toList
  let (name, rest) := if cs.head? = some '[' then (cs.drop 1).span (· ≠ ']') else cs.span (· ≠ ':')
  let digits := rest.filter Char.isDigit
  let number := digits.foldl (fun n d => 10 * n + (d.toNat - '0'.toNat)) 0
  (String.ofList name, if digits.isEmpty then 80 else .ofNat number)

namespace Connection

open Std.Async

/-- Connects to the first of some addresses that accepts, or says what came of the last one. -/
def establish (service : UInt16) : List Std.Net.IPAddr → Async (Network ⊕ TCP.Socket.Client)
  | [] => pure (.inl .unreachable)
  | address :: others => do
    try
      let socket ← TCP.Socket.Client.mk
      socket.connect (match address with
        | .v4 addr => .v4 ⟨addr, service⟩
        | .v6 addr => .v6 ⟨addr, service⟩)
      pure (.inr socket)
    catch e =>
      if others.isEmpty then pure (.inl (if isRefusal e then .refused else .unreachable))
      else establish service others
where
  isRefusal (e : IO.Error) : Bool := (toString e).toLower.contains "refused"

def receive (socket : TCP.Socket.Client) : Async (List UInt8) := do
  let mut octets := #[]
  repeat
    match ← (try socket.recv? 65536 catch _ => pure none) with
    | some chunk => octets := octets ++ chunk.data
    | none => break
  return octets.toList

/-- Sends a request to the server that its URL names. Nothing is sent in clear where the scheme asks
for a secure connection, which cannot be made. -/
def deliver (r : HttpRequest) : Async Network := do
  let some (scheme, authority) := r.uri.origin | return .unreachable
  if scheme.toLower = "https" then return .unreachable
  let (host, service) := HttpRequest.peer authority
  let addresses ← try DNS.getAddrInfo host (toString service) catch _ => pure #[]
  match ← establish service addresses.toList with
  | .inl network => return network
  | .inr socket =>
    let reply ← try socket.send r.octets; receive socket catch _ => pure []
    return .serving fun _ => some reply

/-- Makes a call, and gives up when its time is over. -/
def send (e : Endpoint) (timeout : Duration) (call : Call) : Async (Except ApiError Response) := do
  let .ok r := e.request call | return e.send .unreachable timeout call
  let giveUp : Async Network := do
    sleep (.ofNat (timeout.secs * 1000 + timeout.nanos / 1000000))
    return .serving fun _ => none
  let network ← Async.race (deliver r) giveUp
  return e.send network timeout call

end Connection

end OrderBench
