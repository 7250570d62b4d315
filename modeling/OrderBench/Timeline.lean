import OrderBench.Phase

/-!
A phase on a clock. Calls take the time that the service says; of the calls that end at the same
moment the one with the least index is first, and all of them end before a waiting task starts.
-/
namespace OrderBench

structure Due where
  time : Nat
  index : Nat
  answer : Answer

def Due.before (a b : Due) : Bool := a.time < b.time || (a.time = b.time && a.index < b.index)

def Due.insert (a : Due) : List Due → List Due
  | [] => [a]
  | b :: bs => if b.before a then b :: a.insert bs else a :: b :: bs

/-- A phase at a moment in nanoseconds, with the ends of its calls under way in order of time. -/
structure Timeline where
  phase : Phase
  tally : Tally
  now : Nat
  /-- The most calls that were ever under way at a time. -/
  peak : Nat
  agenda : List Due := []

namespace Timeline

variable (venue : Venue) (t : Timeline)

def startNext : Option Timeline :=
  (t.phase.start t.now).map fun (call, phase) =>
    match call with
    | none => { t with phase }
    | some call =>
      let (number, tally) := t.tally.count call
      let answer := venue number call
      let due : Due := ⟨t.now + answer.latency, t.phase.started, answer⟩
      { t with phase, tally, peak := max t.peak phase.inFlight.length, agenda := due.insert t.agenda }

def finishNext (due : Due) (agenda : List Due) : Option Timeline :=
  (t.phase.finish due.index due.answer).map fun phase =>
    { t with phase, agenda, now := max t.now due.time }

/-- One event: a call that is due ends; else a task starts; else time passes until a call ends. -/
def step? : Option Timeline :=
  match t.agenda with
  | [] => t.startNext venue
  | due :: agenda =>
    if due.time ≤ t.now then t.finishNext due agenda
    else (t.startNext venue).or (t.finishNext due agenda)

/-- At most so many events are left. -/
def work : Nat := 2 * (t.phase.total - t.phase.started) + t.agenda.length

def steps : Nat → Timeline → Timeline
  | 0, t => t
  | n + 1, t => match t.step? venue with
    | some t => steps n t
    | none => t

def run : Timeline := steps venue t.work t

end Timeline

end OrderBench
