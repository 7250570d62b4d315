import OrderBench.Desk

/-!
A run of a workload: its counts, its warm-up and its measured phase. It is one computation for all stages that it
can be performed on, those of a model clock and those of the real one.
-/
namespace OrderBench

structure Warmup where
  requested : Nat
  created : Nat
  elapsed : Duration

/-- What a run produced: the attempts of its measured phase, and its length with the warm-up. -/
structure RunRecord where
  workload : Workload
  attempts : List Attempt
  elapsed : Duration
  warmup : Option Warmup

/-- The most placements that are made before a run of cancels. -/
def maxCancelWarmup : Nat := 100

namespace Workload

/-- How many placements come before a run of so many tasks, if it is warmed up at all. -/
def warmupCount (total : Nat) : Workload → Except Fault (Option Nat)
  | .place => .ok none
  | .cancel => .ok (some (min total maxCancelWarmup))
  | .both => (addCounts total (total / 2)).map some

def task : Workload → Task
  | .place => .place
  | .cancel => .cancel
  | .both => .mixed

/-- How many tasks are measured. A run of cancels has no more than its warm-up created. -/
def measuredCount (total : Nat) (warmup : Option Warmup) : Workload → Nat
  | .place | .both => total
  | .cancel => min total ((warmup.map Warmup.created).getD 0)

end Workload

/-- What a run needs: a clock, a journal, and someone who runs phases to their end. -/
structure Stage (m : Type → Type) where
  now : m Nat
  note : Entry → m Unit
  phase : Task → Nat → m (List Attempt)

namespace Stage

variable {m : Type → Type} [Monad m] (stage : Stage m)

def warmUp (count : Nat) : m Warmup := do
  stage.note (.warmingUp count)
  let start ← stage.now
  let attempts ← stage.phase .place count
  let created := attempts.countP Attempt.succeeded
  stage.note (.warmedUp created)
  return ⟨count, created, .ofNanos ((← stage.now) - start)⟩

/-- A run, unless the count of its warm-up is too great. -/
def run (workload : Workload) (total : Nat) : ExceptT Fault m RunRecord := do
  let start ← stage.now
  let warmup ← match ← ofExcept (workload.warmupCount total) with
    | none => pure none
    | some count => some <$> stage.warmUp count
  let attempts ← stage.phase workload.task (workload.measuredCount total warmup)
  let elapsed := .ofNanos ((← stage.now) - start)
  stage.note (.finished workload attempts.length elapsed)
  return ⟨workload, attempts, elapsed, warmup⟩

end Stage

end OrderBench
