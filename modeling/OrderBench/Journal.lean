import OrderBench.OrderId
import OrderBench.Attempt

/-!
What happens at a desk, entry by entry. The log, the list of calls and the list of registered ids are
views of the journal.
-/
namespace OrderBench

def programName : String := "order-loadtest"

def version : String := "0.1.0"

/-- Which requests a run is made of. -/
inductive Workload
  | place
  | cancel
  | both
  deriving DecidableEq

instance : Word Workload where
  values := [.place, .cancel, .both]
  word
    | .place => "place"
    | .cancel => "cancel"
    | .both => "both"

/-- Severities, the gravest last. -/
inductive Level
  | trace
  | debug
  | info
  | warn
  | error
  deriving DecidableEq

namespace Level

def text : Level → String
  | .trace => "TRACE"
  | .debug => "DEBUG"
  | .info => "INFO"
  | .warn => "WARN"
  | .error => "ERROR"

/-- The level that a setting names, in any case of letters; any other word means `info`. -/
def ofName (name : String) : Level :=
  match name.toLower with
  | "trace" => .trace
  | "debug" => .debug
  | "warn" => .warn
  | "error" => .error
  | _ => .info

def rank : Level → Nat
  | .trace => 0
  | .debug => 1
  | .info => 2
  | .warn => 3
  | .error => 4

end Level

inductive Entry
  | registered (id : String)
  | refused (id : String)
  | taken (id : String)
  | called (time : Nat) (call : Call)
  | failed (kind : RequestKind) (error : ApiError)
  | unreadable (fault : EnvelopeFault)
  | warmingUp (count : Nat)
  | warmedUp (created : Nat)
  | finished (workload : Workload) (count : Nat) (elapsed : Duration)
  | starting

namespace Entry

def call? : Entry → Option (Nat × Call)
  | .called time call => some (time, call)
  | _ => none

def registered? : Entry → Option String
  | .registered id => some id
  | _ => none

/-- The line of the log for an entry, if it has one. -/
def record? (complaint : String → String) : Entry → Option (Level × String)
  | .refused id => some (.warn, s!"Ignoring duplicate order id {id}")
  | .failed kind error => some (.debug, s!"{kind.text} request failed: {error.message}")
  | .unreadable fault => some (.debug, s!"Unparseable place response: {fault.message complaint}")
  | .warmingUp count => some (.info, s!"Creating {count} warm-up orders...")
  | .warmedUp created => some (.info, s!"Created {created} orders during warm-up")
  | .finished workload count elapsed =>
    some (.info, s!"{word workload} run finished: {count} requests in {elapsed.seconds.toFixed2}s")
  | .starting => some (.info, s!"Starting {programName} v{version}")
  | .registered _ | .taken _ | .called _ _ => none

end Entry

/-- The entries, newest first. -/
abbrev Journal := List Entry

namespace Journal

variable (j : Journal)

/-- The calls with their starting times, in the order in which they were made. -/
def calls : List (Nat × Call) := j.reverse.filterMap Entry.call?

/-- The ids that were accepted as open orders, in that order. -/
def registrations : List String := j.reverse.filterMap Entry.registered?

def log (complaint : String → String) : List (Level × String) := j.reverse.filterMap (Entry.record? complaint)

/-- The lines of the log that a level lets through. -/
def logFrom (complaint : String → String) (level : Level) : List (Level × String) :=
  (j.log complaint).filter (level.rank ≤ ·.1.rank)

end Journal

end OrderBench
