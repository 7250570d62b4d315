import OrderBench.Fault
import OrderBench.Number.Binary64

/-!
Figures over the latencies of a run. A percentile is one of the samples, by its rank.
-/
namespace OrderBench

/-- The sample whose rank is the given fraction of the count, rounded down; `sorted` is ascending. -/
def percentile (sorted : List Binary64) (fraction : Binary64) : Binary64 :=
  let rank := (fraction * .ofNat sorted.length).toCount maxCount
  sorted.getD (min rank (sorted.length - 1)) .zero

structure Latency where
  avg : Binary64
  min : Binary64
  max : Binary64
  p50 : Binary64
  p95 : Binary64
  p99 : Binary64
  deriving DecidableEq

namespace Latency

def zero : Latency := ⟨.zero, .zero, .zero, .zero, .zero, .zero⟩

def sort (samples : List Binary64) : List Binary64 :=
  samples.mergeSort fun a b => a.orderKey ≤ b.orderKey

/-- The sum from the first sample on. -/
def sum (sorted : List Binary64) : Binary64 := sorted.foldl (· + ·) (.ofMagnitude true 0)

def ofSamples (samples : List Binary64) : Latency :=
  match sort samples with
  | [] => zero
  | least :: rest =>
    let sorted := least :: rest
    { avg := sum sorted / .ofNat sorted.length
      min := least
      max := sorted.getLast (List.cons_ne_nil least rest)
      p50 := percentile sorted (.ofRatio false 50 100)
      p95 := percentile sorted (.ofRatio false 95 100)
      p99 := percentile sorted (.ofRatio false 99 100) }

end Latency

end OrderBench
