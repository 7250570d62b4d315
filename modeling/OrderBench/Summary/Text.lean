import OrderBench.Summary.Basic

/-!
The summary as text, line by line.
-/
namespace OrderBench

def rule : String := String.ofList (List.replicate 60 '=')

namespace Summary

def latencyLine (label : String) (seconds : Binary64) : String :=
  s!"  {label}: {(seconds * .ofNat 1000).toFixed2} ms"

def warmupLine (w : Warmup) : String :=
  s!"Warm-up: {w.created}/{w.requested} orders created in {w.elapsed.seconds.toFixed2}s"

variable (s : Summary)

def countLines : List String :=
  [s!"Total requests: {s.total}",
    s!"Succeeded: {s.success} ({s.successRate.toFixed2}%)",
    s!"Failed: {s.fail} ({s.failRate.toFixed2}%)",
    s!"Elapsed: {s.elapsed.seconds.toFixed2} s",
    s!"QPS: {s.qps.toFixed2}"]

/-- The counts by kind, where there is more than one. -/
def kindLines : List String :=
  if s.byKind.length ≤ 1 then []
  else "" :: "By request type:" ::
    s.byKind.map fun k => s!"  {k.kind.text}: {k.total} ({k.success} succeeded)"

def latencyLines : List String :=
  ["", "Response times (successful requests):",
    latencyLine "Avg" s.latency.avg,
    latencyLine "Min" s.latency.min,
    latencyLine "Max" s.latency.max,
    latencyLine "P50" s.latency.p50,
    latencyLine "P95" s.latency.p95,
    latencyLine "P99" s.latency.p99]

def errorLines : List String :=
  if s.errors.isEmpty then []
  else "" :: "Errors:" :: s.errors.map fun (message, count) => s!"  {message}: {count}"

def lines : List String :=
  [rule, "Load test results", rule] ++ (s.warmup.map warmupLine).toList ++ s.countLines ++ s.kindLines
    ++ s.latencyLines ++ s.errorLines ++ [rule]

def text : String := "\n".intercalate s.lines

end Summary

end OrderBench
