import OrderBench.Desk

/-!
A phase runs equal tasks under a limit: a task needs a permit to start, and keeps it until it has
ended. Tasks start in the order of their indices, and end in any order.
-/
namespace OrderBench

structure Phase where
  desk : Desk
  task : Task
  total : Nat
  /-- Tasks with a smaller index have started, the others wait. -/
  started : Nat := 0
  free : Nat
  /-- The calls under way, each with the index of its task. -/
  inFlight : List (Nat × Call) := []
  attempts : Array (Option Attempt)

namespace Phase

variable (p : Phase)

def opening (desk : Desk) (task : Task) (total permits : Nat) : Phase where
  desk := desk
  task := task
  total := total
  free := permits
  attempts := Array.replicate total none

def record (index : Nat) (a : Attempt) : Phase :=
  { p with attempts := p.attempts.setIfInBounds index (some a) }

/-- The next waiting task starts, if there is one and a permit is free. A task without a call ends at
once and keeps no permit. -/
def start (time : Nat) : Option (Option Call × Phase) :=
  if p.started < p.total ∧ 0 < p.free then
    let next := { p with started := p.started + 1 }
    match p.desk.begin time p.task with
    | (none, desk) => some (none, { next with desk }.record p.started .nothingToCancel)
    | (some call, desk) =>
      some (some call, { next with desk, free := p.free - 1, inFlight := (p.started, call) :: p.inFlight })
  else none

/-- A call under way is answered; its task ends and returns its permit. -/
def finish (index : Nat) (answer : Answer) : Option Phase :=
  match p.inFlight.lookup index with
  | none => none
  | some call =>
    let (attempt, desk) := p.desk.settle call answer
    let inFlight := p.inFlight.filter (·.1 ≠ index)
    some ({ p with desk, inFlight, free := p.free + 1 }.record index attempt)

/-- What happens in a phase: a task starts, with or without a call, or a call is answered. -/
inductive Move
  | start (time : Nat) (call : Option Call)
  | finish (index : Nat) (call : Call) (answer : Answer)

/-- One move: the next task starts, at any time, or any call under way is answered, in any way. -/
inductive Step : Phase → Move → Phase → Prop
  | start {p q : Phase} {time : Nat} {call : Option Call} (h : p.start time = some (call, q)) :
      Step p (.start time call) q
  | finish {p q : Phase} {index : Nat} {call : Call} {answer : Answer}
      (hc : p.inFlight.lookup index = some call) (h : p.finish index answer = some q) :
      Step p (.finish index call answer) q

inductive Run (p : Phase) : List Move → Phase → Prop
  | nil : Run p [] p
  | snoc {ms : List Move} {m : Move} {q r : Phase} : Run p ms q → Step q m r → Run p (ms ++ [m]) r

/-- All tasks have started, and no call is under way. -/
def Ended : Prop := p.started = p.total ∧ p.inFlight = []

/-- The attempts that were made, in the order of their tasks. -/
def results : List Attempt := p.attempts.toList.filterMap id

end Phase

end OrderBench
