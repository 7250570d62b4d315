import OrderBench.Live
import Std.Time

/-!
The command line program.
-/
namespace OrderBench

/-- The numbers that come from a seed by mixing the bits of its multiples of a constant. -/
def Draws.seeded (seed : UInt64) : Draws where
  source k :=
    let z := seed + (.ofNat k + 1) * 0x9e3779b97f4a7c15
    let z := (z ^^^ (z >>> 30)) * 0xbf58476d1ce4e5b9
    let z := (z ^^^ (z >>> 27)) * 0x94d049bb133111eb
    (z ^^^ (z >>> 31)).toNat

namespace Program

/-- The text of the nearest file of variables, here or in a directory above. -/
def envFile : IO (Option String) := do
  let mut directory := some (← IO.currentDir)
  repeat
    let some here := directory | break
    let file := here / ".env"
    if ← file.pathExists then return ← try some <$> IO.FS.readFile file catch _ => pure none
    directory := here.parent
  return none

/-- The variables with names that matter: those of the flags, those that decide on styles, and the words of
a file. -/
def environment (file : String) : IO Environment := do
  let isPart (c : Char) := c.isAlphanum || c == '_'
  let words := (file.map fun c => if isPart c then c else ' ').splitOn " "
  let names := Key.all.map Key.variableName ++ ["CLICOLOR_FORCE", "NO_COLOR"] ++ words.filter (· ≠ "")
  return (← names.mapM fun name => return (← IO.getEnv name).map (name, ·)).filterMap id

def seed : IO UInt64 := do
  return (← IO.getRandomBytes 8).foldl (fun n b => n * 256 + b.toUInt64) 0

def fail (l : Launch) : IO UInt32 := do
  IO.print l.output
  if let some error := l.error then IO.eprintln error
  return .ofNat l.exitCode

def perform (s : Settings) : IO UInt32 := do
  let live : Live := {
    endpoint := .opening s.url s.userId
    permits := s.concurrency
    desk := Launch.desk s (.seeded (← seed))
    level := s.level
    complaint := fun _ => "the text is not JSON" }
  let live ← live.report
  IO.print (Launch.opening s ((← Std.Time.PlainDateTime.now).format "uuuu-MM-dd HH:mm:ss"))
  match ← live.run s.workload s.total with
  | .ok record => IO.print (Launch.closing record); return 0
  | .error fault => IO.eprintln fault.message; fail .crash

def run (args : List String) : IO UInt32 := do
  let file ← envFile
  match (← environment (file.getD "")).withFile (file.getD "") with
  | none => fail .crash
  | some env => match CommandLine.load args env with
    | .ok s => perform s
    | .error stop => fail (.stopped env stop)

end Program

end OrderBench

def main (args : List String) : IO UInt32 := OrderBench.Program.run args
