import OrderBench.Session

/-!
The runs of a driver, whatever its calls are answered and in whatever order they end. A session takes
the one course that its clock and its service give.
-/
namespace OrderBench

/-- A driver between two runs, in the warm-up of a run, or in its measured phase. -/
inductive Driver
  | idle (desk : Desk) (permits : Nat)
  | warming (workload : Workload) (total : Nat) (phase : Phase)
  | measuring (workload : Workload) (phase : Phase)

namespace Driver

def desk : Driver → Desk
  | .idle desk _ => desk
  | .warming _ _ p | .measuring _ p => p.desk

def free : Driver → Nat
  | .idle _ permits => permits
  | .warming _ _ p | .measuring _ p => p.free

def inFlight : Driver → List (Nat × Call)
  | .idle _ _ => []
  | .warming _ _ p | .measuring _ p => p.inFlight

/-- The warm-up of a run, its first entry made. -/
def warmUp (desk : Desk) (permits count : Nat) : Phase :=
  .opening (desk.note (.warmingUp count)) .place count permits

/-- The measured phase of a run that may have been warmed up. -/
def measured (workload : Workload) (total : Nat) (warmup : Option Warmup) (desk : Desk) (permits : Nat) : Phase :=
  .opening desk workload.task (workload.measuredCount total warmup) permits

/-- What a warm-up that has ended came to. -/
def summary (p : Phase) (elapsed : Duration) : Warmup :=
  ⟨p.total, p.results.countP Attempt.succeeded, elapsed⟩

/-- A run begins, one of its phases makes a move or is over. Only a move is told. -/
inductive Step : Driver → Option Phase.Move → Driver → Prop
  | begin {workload : Workload} {total : Nat} {desk : Desk} {permits : Nat}
      (h : workload.warmupCount total = .ok none) :
      Step (.idle desk permits) none (.measuring workload (measured workload total none desk permits))
  | warmUp {workload : Workload} {total count : Nat} {desk : Desk} {permits : Nat}
      (h : workload.warmupCount total = .ok (some count)) :
      Step (.idle desk permits) none (.warming workload total (warmUp desk permits count))
  | warming {workload : Workload} {total : Nat} {p q : Phase} {m : Phase.Move} (h : Phase.Step p m q) :
      Step (.warming workload total p) (some m) (.warming workload total q)
  | warm {workload : Workload} {total : Nat} {p : Phase} {elapsed : Duration} (h : p.Ended) :
      Step (.warming workload total p) none (.measuring workload
        (measured workload total (some (summary p elapsed))
          (p.desk.note (.warmedUp (summary p elapsed).created)) p.free))
  | measuring {workload : Workload} {p q : Phase} {m : Phase.Move} (h : Phase.Step p m q) :
      Step (.measuring workload p) (some m) (.measuring workload q)
  | finish {workload : Workload} {p : Phase} {elapsed : Duration} (h : p.Ended) :
      Step (.measuring workload p) none
        (.idle (p.desk.note (.finished workload p.results.length elapsed)) p.free)

/-- The moves of a driver from a state on, through any number of runs. -/
inductive History (d : Driver) : List Phase.Move → Driver → Prop
  | nil : History d [] d
  | snoc {ms : List Phase.Move} {m : Option Phase.Move} {e f : Driver} :
      History d ms e → Step e m f → History d (ms ++ m.toList) f

end Driver

/-- A run with a warm-up, its calls answered in any way and in any order. -/
structure WarmRun (workload : Workload) (total : Nat) (desk : Desk) (permits : Nat) where
  count : Nat
  elapsed : Duration
  warmUpMoves : List Phase.Move
  warmUp : Phase
  measuredMoves : List Phase.Move
  measured : Phase
  warmupCount_eq : workload.warmupCount total = .ok (some count)
  warmUp_run : Phase.Run (Driver.warmUp desk permits count) warmUpMoves warmUp
  warmUp_ended : warmUp.Ended
  measured_run : Phase.Run (Driver.measured workload total (some (Driver.summary warmUp elapsed))
    (warmUp.desk.note (.warmedUp (Driver.summary warmUp elapsed).created)) warmUp.free) measuredMoves measured
  measured_ended : measured.Ended

namespace WarmRun

variable {workload : Workload} {total : Nat} {desk : Desk} {permits : Nat} (r : WarmRun workload total desk permits)

def warmup : Warmup := Driver.summary r.warmUp r.elapsed

/-- The open orders when the measured phase begins. -/
def stock : List String := r.warmUp.desk.openOrders.toList

end WarmRun

end OrderBench
