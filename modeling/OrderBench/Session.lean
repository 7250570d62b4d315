import OrderBench.Run
import OrderBench.Timeline

/-!
A session joins a desk to a service on one clock: single requests, and runs of a workload with a limit
on the calls under way.
-/
namespace OrderBench

structure Session where
  venue : Venue
  /-- The permits that are free between phases. -/
  permits : Nat
  desk : Desk
  tally : Tally := {}
  now : Nat := 0
  peak : Nat := 0

namespace Session

variable (s : Session)

def opening (venue : Venue) (permits : Nat) (desk : Desk) : Except Fault Session :=
  if permits ≤ maxPermits then .ok { venue, permits, desk } else .error .tooManyPermits

/-- Waits for the answer to a call and settles it. -/
def await (call : Option Call) (desk : Desk) : Attempt × Session :=
  match call with
  | none => (.nothingToCancel, { s with desk })
  | some call =>
    let (number, tally) := s.tally.count call
    let answer := s.venue number call
    let (attempt, desk) := desk.settle call answer
    (attempt, { s with desk, tally, now := s.now + answer.latency })

def place (side : Option Side) (price : Option Int64) : Attempt × Session :=
  let (call, desk) := s.desk.place s.now side price
  s.await (some call) desk

def cancel (id : Option String) : Attempt × Session :=
  let (call, desk) := s.desk.cancel s.now id
  s.await call desk

def note (e : Entry) : Session := { s with desk := s.desk.note e }

def timeline (task : Task) (total : Nat) : Timeline where
  phase := .opening s.desk task total s.permits
  tally := s.tally
  now := s.now
  peak := s.peak

/-- Runs a phase to its end. The permits that it returns serve the next one. -/
def runPhase (task : Task) (total : Nat) : List Attempt × Session :=
  let t := (s.timeline task total).run s.venue
  (t.phase.results,
    { s with permits := t.phase.free, desk := t.phase.desk, tally := t.tally, now := t.now, peak := t.peak })

/-- A session as the stage of its runs. -/
def stage : Stage (StateM Session) where
  now := Session.now <$> get
  note e := modify (·.note e)
  phase task total := modifyGet (·.runPhase task total)

def warmUp (count : Nat) : Warmup × Session := (stage.warmUp count).run s

/-- What a run returns, and the session that it leaves behind, also where a fault ends it. -/
def perform (workload : Workload) (total : Nat) : Except Fault RunRecord × Session :=
  ((stage.run workload total).run).run s

/-- A run that no fault ends. -/
def run (workload : Workload) (total : Nat) : Except Fault (RunRecord × Session) :=
  match s.perform workload total with
  | (.ok r, t) => .ok (r, t)
  | (.error fault, _) => .error fault

end Session

end OrderBench
