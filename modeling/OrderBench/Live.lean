import OrderBench.Http.Connection
import OrderBench.Launch

/-!
Runs on the real clock: the calls of a phase are under way at the same time, and are settled as their
answers arrive.
-/
namespace OrderBench

/-- A desk and the service that it deals with, the limit on calls under way, and what the log shows. -/
structure Live where
  endpoint : Endpoint
  permits : Nat
  desk : Desk
  level : Level
  complaint : String → String

namespace Live

open Std.Async

variable (l : Live)

def answer (call : Call) : Async Answer := do
  let start ← IO.monoNanosNow
  let outcome ← Connection.send l.endpoint Settings.requestTimeout call
  return ⟨(← IO.monoNanosNow) - start, outcome⟩

/-- Writes what the desk has to say, and clears its journal. -/
def report : IO Live := do
  for (level, text) in l.desk.journal.logFrom l.complaint l.level do
    IO.eprintln s!"[{level.text}] {text}"
  return { l with desk := { l.desk with journal := [] } }

/-- Runs a phase to its end: tasks start while they can, then the first answer to arrive is settled. -/
def runPhase (task : OrderBench.Task) (total : Nat) : IO (List Attempt × Live) := do
  let mut live := l
  let mut phase := Phase.opening l.desk task total l.permits
  let mut pending := #[]
  repeat
    match phase.start (← IO.monoNanosNow) with
    | some (call, next) =>
      if let some call := call then
        let index := phase.started
        pending := pending.push (index, ← Async.toIO do return (index, ← l.answer call))
      phase := next
    | none =>
      let first :: rest := pending.toList | break
      let (index, answer) ← IO.ofExcept (← IO.waitAny (first.2 :: rest.map (·.2)))
      pending := pending.filter (·.1 ≠ index)
      phase := (phase.finish index answer).getD phase
    live ← { live with desk := phase.desk }.report
    phase := { phase with desk := live.desk }
  return (phase.results, { live with permits := phase.free })

def stage : Stage (StateT Live IO) where
  now := IO.monoNanosNow
  note e := do
    let live ← get
    set (← { live with desk := live.desk.note e }.report)
  phase task total := do
    let (attempts, live) ← (← get).runPhase task total
    set live
    return attempts

def run (workload : Workload) (total : Nat) : IO (Except Fault RunRecord) :=
  ((stage.run workload total).run).run' l

end Live

end OrderBench
