import OrderBench.Journal

/-!
The settings of a load test: their defaults, what is valid, and the banner that shows them.
-/
namespace OrderBench

structure Settings where
  url : String := "http://localhost:8081"
  concurrency : Nat := 10
  total : Nat := 100
  workload : Workload := .both
  symbol : String := "BTCUSDT"
  userId : Int64 := 1000000000000000001
  logLevel : String := "info"
  deriving DecidableEq

inductive SettingsError
  | noConcurrency
  | concurrencyTooGreat
  | emptyUrl
  deriving DecidableEq

def SettingsError.message : SettingsError → String
  | .noConcurrency => "concurrency must be at least 1"
  | .concurrencyTooGreat => s!"concurrency must not exceed {maxPermits}"
  | .emptyUrl => "url must not be empty"

def trimSlashes (url : String) : String :=
  String.ofList (url.toList.reverse.dropWhile (· == '/')).reverse

namespace Settings

variable (s : Settings)

def validate : Except SettingsError Unit :=
  if s.concurrency = 0 then .error .noConcurrency
  else if maxPermits < s.concurrency then .error .concurrencyTooGreat
  else if s.url.isEmpty then .error .emptyUrl
  else .ok ()

def accept : Except SettingsError Settings := do
  let s := { s with url := trimSlashes s.url }
  s.validate
  pure s

/-- Idle connections kept for the service. -/
def poolSize : Except Fault Nat := mulCounts s.concurrency 2

def requestTimeout : Duration := ⟨10, 0⟩

def level : Level := .ofName s.logLevel

def bannerLines : List String :=
  [s!"Target: {s.url}",
    s!"Concurrency: {s.concurrency}",
    s!"Total requests: {s.total}",
    s!"Test type: {word s.workload}",
    s!"User ID: {s.userId.toInt}",
    s!"Symbol: {s.symbol} (tick size {(tickSize s.symbol).toInt})"]

def banner : String := "\n".intercalate s.bannerLines

end Settings

end OrderBench
