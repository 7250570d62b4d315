import OrderBench.CommandLine.Parse
import OrderBench.EnvFile
import OrderBench.Http.Network
import OrderBench.Session
import OrderBench.Summary.Text
import OrderBench.Text.Lines
import OrderBench.Text.Plain
import OrderBench.Text.Quoted

/-!
From a command line to the output and the exit code.
-/
namespace OrderBench

/-- What a launch of the program leaves behind. -/
structure Launch where
  exitCode : Nat
  output : String := ""
  log : List (Level × String) := []
  /-- Whether the lines of the log are written with styles. -/
  styled : Bool := false
  error : Option String := none

namespace Launch

/-- A launch that a fault ends. -/
def crash : Launch := { exitCode := 101 }

/-- A styled text as a stream that is no terminal takes it. -/
def write (env : Environment) (t : StyledText) : String :=
  if env.forcesStyles then t.render else plainText .stream t.render

/-- A launch that comes to no run. -/
def stopped (env : Environment) : Stop → Launch
  | .help long => { exitCode := 0, output := write env (Help.text long env) }
  | .version => { exitCode := 0, output := CommandLine.versionText }
  | .usage e => { exitCode := 2, error := some (firstLine (write env e.message)) }
  | .invalid e => { exitCode := 1, error := some s!"Error: Config({quoteText e.message})" }

def unlines (lines : List String) : String := String.join (lines.map (· ++ "\n"))

/-- What is shown before a run. -/
def opening (s : Settings) (clock : String) : String :=
  unlines ([rule, "Starting load test at " ++ clock, rule] ++ s.bannerLines ++ [rule])

def closing (r : RunRecord) : String := unlines (Summary.ofRun r).lines

/-- The desk of a run, its first entry made. -/
def desk (s : Settings) (draws : Draws) : Desk := { symbol := s.symbol, draws, journal := [.starting] }

/-- A launch with valid settings, on a network where every exchange is over at once. -/
def perform (s : Settings) (network : Network) (draws : Draws) (complaint : String → String) (clock : String) :
    Launch :=
  let venue := (Endpoint.opening s.url s.userId).venue network Settings.requestTimeout
  let desk := desk s draws
  let (outcome, desk) := match s.poolSize >>= fun _ => Session.opening venue s.concurrency desk with
    | .ok session => match session.perform s.workload s.total with
      | (outcome, t) => (outcome, t.desk)
    | .error fault => (.error fault, desk)
  let log := desk.journal.logFrom complaint s.level
  match outcome with
  | .ok r => { exitCode := 0, output := opening s clock ++ closing r, log }
  | .error _ => { crash with output := opening s clock, log }

/-- A whole launch, with the text of a file of variables if there is one. -/
def run (args : List String) (env : Environment) (file : Option String) (network : Network) (draws : Draws)
    (complaint : String → String) (clock : String) : Launch :=
  match (file.map env.withFile).getD (some env) with
  | none => crash
  | some env => match CommandLine.load args env with
    | .ok s => { perform s network draws complaint clock with styled := env.forcesStyles }
    | .error stop => stopped env stop

end Launch

end OrderBench
