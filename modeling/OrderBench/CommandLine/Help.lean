import OrderBench.CommandLine.Key

/-!
The help of the command line, in a short form with a line for each flag and in a long form. Both show
the values that the environment gives.
-/
namespace OrderBench

namespace Key

def about : Key → String
  | .url => "Order service base URL"
  | .concurrency => "Maximum number of requests in flight"
  | .total => "Number of measured requests"
  | .testType => "Workload to run"
  | .symbol => "Trading pair"
  | .userId => "Value sent in the userId header"
  | .logLevel => "Log level (trace, debug, info, warn, error)"

def default (k : Key) : String :=
  let s : Settings := {}
  match k with
  | .url => s.url
  | .concurrency => toString s.concurrency
  | .total => toString s.total
  | .testType => word s.workload
  | .symbol => s.symbol
  | .userId => toString s.userId.toInt
  | .logLevel => s.logLevel

/-- The variable with its value, and the default. -/
def sources (env : Environment) (k : Key) : List String :=
  let value := (k.value? env).getD ""
  [s!"[env: {k.variableName}={value}]", s!"[default: {k.default}]"]

end Key

def Workload.about : Workload → String
  | .place => "Place orders only"
  | .cancel => "Warm up with placements, then cancel them"
  | .both => "Warm up, then interleave placements and cancels"

namespace Help

def spaces (n : Nat) : String := String.ofList (List.replicate n ' ')

/-- A text whose further lines are indented. -/
def hang (indent : Nat) (text : String) : String := text.replace "\n" ("\n" ++ spaces indent)

def fill (width : Nat) (t : StyledText) : StyledText := t ++ .plain (spaces (width - t.length))

/-- The column at which the explanations of the short form begin. -/
def column : Nat := 35

/-- The indent of the explanations of the long form. -/
def indent : Nat := 10

def indented (text : String) : StyledText := .plain (spaces indent ++ text)

def opening : List StyledText :=
  [["Concurrent place/cancel load test for the order service"], [],
    [.styled .heading "Usage:", " ", .styled .literal programName, " [OPTIONS]"], [],
    [.styled .heading "Options:"]]

def flag (k : Key) : StyledText := [spaces 6, .styled .literal ("--" ++ k.flag), s!" <{k.placeholder}>"]

def switch (short long : String) : StyledText :=
  ["  ", .styled .literal ("-" ++ short), ", ", .styled .literal ("--" ++ long)]

def workloadNames : List String := (Word.values (α := Workload)).map word

def shortLine (env : Environment) (k : Key) : StyledText :=
  let choices := if k = .testType
    then ["[possible values: " ++ ", ".intercalate workloadNames ++ "]"] else []
  fill column (flag k) ++ .plain (hang column (" ".intercalate (k.about :: k.sources env ++ choices)))

def choice (w : Workload) : StyledText :=
  .plain (spaces indent) ++ fill 10 ["- ", .styled .literal (word w), ":"] ++ .plain w.about

def choices (k : Key) : List StyledText :=
  if k = .testType then [] :: indented "Possible values:" :: (Word.values (α := Workload)).map choice else []

def longLines (env : Environment) (k : Key) : List StyledText :=
  [flag k, indented k.about] ++ choices k ++ [indented ""] ++
    (k.sources env).map (indented <| hang indent ·) ++ [[]]

def shortLines (env : Environment) : List StyledText :=
  opening ++ Key.all.map (shortLine env) ++
    [fill column (switch "h" "help") ++ .plain "Print help (see more with '--help')",
      fill column (switch "V" "version") ++ .plain "Print version"]

def longForm (env : Environment) : List StyledText :=
  opening ++ Key.all.flatMap (longLines env) ++
    [switch "h" "help", indented "Print help (see a summary with '-h')", [],
      switch "V" "version", indented "Print version"]

def text (long : Bool) (env : Environment) : StyledText :=
  (if long then longForm env else shortLines env).flatMap (· ++ [Piece.plain "\n"])

end Help

end OrderBench
