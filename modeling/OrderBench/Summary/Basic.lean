import OrderBench.Session
import OrderBench.Summary.Latency
import OrderBench.Summary.Messages

/-!
The figures of a run: counts, rates, latencies of the successes, and the failures by their message.
-/
namespace OrderBench

structure KindCount where
  kind : RequestKind
  total : Nat
  success : Nat
  deriving DecidableEq

structure Summary where
  total : Nat
  success : Nat
  fail : Nat
  elapsed : Duration
  qps : Binary64
  latency : Latency
  /-- The messages of the failures with their counts, the most frequent first. -/
  errors : List (String × Nat)
  byKind : List KindCount
  warmup : Option Warmup

/-- The message under which a failure is counted. -/
def Attempt.failure? (a : Attempt) : Option String :=
  match a.verdict with
  | .success _ => none
  | .failure message => some (if message.isEmpty then s!"HTTP {a.status}" else message)

namespace Summary

/-- The messages by falling count; equal counts keep the order in which they first occur. -/
def rankErrors (attempts : List Attempt) : List (String × Nat) :=
  (MessageCounts.ofMessages (attempts.filterMap Attempt.failure?)).toList.mergeSort fun a b => b.2 ≤ a.2

def countKinds (attempts : List Attempt) : List KindCount :=
  [RequestKind.place, .cancel].filterMap fun kind =>
    let ofKind := attempts.filter (·.kind = kind)
    if ofKind.isEmpty then none else some ⟨kind, ofKind.length, ofKind.countP Attempt.succeeded⟩

def ofAttempts (attempts : List Attempt) (elapsed : Duration) (warmup : Option Warmup) : Summary :=
  let total := attempts.length
  let successes := attempts.filter Attempt.succeeded
  let seconds := elapsed.seconds
  { total
    success := successes.length
    fail := total - successes.length
    elapsed
    qps := if seconds.isPositive then .ofNat total / seconds else .zero
    latency := .ofSamples (successes.map Attempt.time)
    errors := rankErrors attempts
    byKind := countKinds attempts
    warmup }

def ofRun (r : RunRecord) : Summary := ofAttempts r.attempts r.elapsed r.warmup

def rate (count total : Nat) : Binary64 :=
  if total = 0 then .zero else .ofNat count / .ofNat total * .ofNat 100

def successRate (s : Summary) : Binary64 := rate s.success s.total

def failRate (s : Summary) : Binary64 := rate s.fail s.total

end Summary

end OrderBench
