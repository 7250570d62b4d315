import OrderBench.Environment
import OrderBench.Number.Integer
import OrderBench.Settings
import OrderBench.Text.Styled

/-!
The settings that can be given from outside, each by its flag or its environment variable.
-/
namespace OrderBench

inductive Key
  | url
  | concurrency
  | total
  | testType
  | symbol
  | userId
  | logLevel
  deriving DecidableEq

inductive UsageError
  | unknownArgument (text : String)
  | valueForSwitch (value switch : String)
  | missingValue (key : Key)
  | repeated (key : Key)
  | unknownWord (value : String) (key : Key)
  | notAnInteger (value : String) (key : Key) (fault : IntegerFault)
  deriving DecidableEq

namespace Key

def all : List Key := [.url, .concurrency, .total, .testType, .symbol, .userId, .logLevel]

def flag : Key → String
  | .url => "url"
  | .concurrency => "concurrency"
  | .total => "total"
  | .testType => "test-type"
  | .symbol => "symbol"
  | .userId => "user-id"
  | .logLevel => "log-level"

def ofFlag? (name : String) : Option Key := all.find? (·.flag = name)

/-- The name that stands for the value in messages. -/
def placeholder : Key → String
  | .url => "URL"
  | .concurrency => "CONCURRENCY"
  | .total => "TOTAL"
  | .testType => "TEST_TYPE"
  | .symbol => "SYMBOL"
  | .userId => "USER_ID"
  | .logLevel => "LOG_LEVEL"

def usage (k : Key) : String := s!"--{k.flag} <{k.placeholder}>"

def variableName : Key → String
  | .logLevel => "LOG_LEVEL"
  | k => "LOADTEST_" ++ k.placeholder

def value? (env : Environment) (k : Key) : Option String := env.value? k.variableName

def readWorkload (k : Key) (text : String) : Except UsageError Workload :=
  if text.isEmpty then .error (.missingValue k)
  else match (Word.values (α := Workload)).find? (word · = text) with
    | some w => .ok w
    | none => .error (.unknownWord text k)

/-- Settings in which the value of a key is replaced by the one that a text gives. -/
def assign (k : Key) (text : String) (s : Settings) : Except UsageError Settings :=
  match k with
  | .url => .ok { s with url := text }
  | .concurrency =>
    ((readCount maxCount text).map fun n => { s with concurrency := n }).mapError (.notAnInteger text k)
  | .total => ((readCount maxCount text).map fun n => { s with total := n }).mapError (.notAnInteger text k)
  | .testType => (k.readWorkload text).map fun w => { s with workload := w }
  | .symbol => .ok { s with symbol := text }
  | .userId => ((readInt64 text).map fun n => { s with userId := n }).mapError (.notAnInteger text k)
  | .logLevel => .ok { s with logLevel := text }

end Key

namespace UsageError

def invalidValue (value : String) (k : Key) : StyledText :=
  ["invalid value '", .styled .invalid value, "' for '", .styled .literal k.usage, "'"]

def reason : UsageError → StyledText
  | .unknownArgument text => ["unexpected argument '", .styled .invalid text, "' found"]
  | .valueForSwitch value switch =>
    ["unexpected value '", .styled .invalid value, "' for '", .styled .literal ("--" ++ switch),
      "' found; no more were expected"]
  | .missingValue key =>
    ["a value is required for '", .styled .invalid key.usage, "' but none was supplied"]
  | .repeated key => ["the argument '", .styled .invalid key.usage, "' cannot be used multiple times"]
  | .unknownWord value key => invalidValue value key
  | .notAnInteger value key fault => invalidValue value key ++ .plain (": " ++ fault.message)

def message (e : UsageError) : StyledText := .styled .error "error:" :: " " :: e.reason

end UsageError

end OrderBench
