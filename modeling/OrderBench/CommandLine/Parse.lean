import OrderBench.CommandLine.Help

/-!
Reading the command line. A flag takes its value after an equals sign or from the next argument; in
the latter case the value is looked at when the next flag is met, or at the end.
-/
namespace OrderBench

/-- Why a command line gives no settings to work with. -/
inductive Stop
  | help (long : Bool)
  | version
  | usage (e : UsageError)
  | invalid (e : SettingsError)
  deriving DecidableEq

namespace CommandLine

def versionText : String := s!"{programName} {version}\n"

structure Progress where
  settings : Settings := {}
  given : List Key := []
  /-- The last flag, if its value is apart from it and not yet looked at. -/
  pending : Option (Key × Option String) := none
  /-- Whether `--` has ended the flags. -/
  ended : Bool := false

namespace Progress

variable (p : Progress)

def give (k : Key) (text : String) : Except UsageError Progress :=
  if k ∈ p.given then .error (.repeated k)
  else (k.assign text p.settings).map fun settings => { p with settings, given := k :: p.given }

def settle : Except UsageError Progress :=
  match p.pending with
  | none => .ok p
  | some (k, none) => .error (.missingValue k)
  | some (k, some text) => { p with pending := none }.give k text

/-- Stops for a switch, unless the pending flag is wrong. -/
def stopFor (s : Stop) : Except Stop Progress :=
  match p.settle with
  | .ok _ => .error s
  | .error e => .error (.usage e)

/-- The name of a long flag and the text after its equals sign. -/
def split (body : List Char) : String × Option String :=
  (String.ofList (body.takeWhile (· ≠ '=')),
    match body.dropWhile (· ≠ '=') with
    | _ :: value => some (String.ofList value)
    | [] => none)

def longFlag (body : List Char) : Except Stop Progress :=
  match split body with
  | (name, value) => match Key.ofFlag? name, value with
    | some k, some text => (p.settle >>= (·.give k text)).mapError .usage
    | some k, none => (p.settle.map fun p => { p with pending := some (k, none) }).mapError .usage
    | none, value =>
      match name, value with
      | "help", none => p.stopFor (.help true)
      | "version", none => p.stopFor .version
      | "help", some text | "version", some text => .error (.usage (.valueForSwitch text name))
      | _, _ => .error (.usage (.unknownArgument ("--" ++ name)))

/-- Of short switches in one argument the first decides. -/
def shortSwitch (c : Char) : Except Stop Progress :=
  match c with
  | 'h' => p.stopFor (.help false)
  | 'V' => p.stopFor .version
  | c => .error (.usage (.unknownArgument (String.ofList ['-', c])))

def next (arg : String) : Except Stop Progress :=
  if p.ended then .error (.usage (.unknownArgument arg))
  else match arg.toList with
    | ['-', '-'] => .ok { p with ended := true }
    | '-' :: '-' :: body => p.longFlag body
    | '-' :: c :: _ => p.shortSwitch c
    | _ => match p.pending with
      | some (k, none) => .ok { p with pending := some (k, some arg) }
      | _ => .error (.usage (.unknownArgument arg))

/-- Takes the variable of a key that was not given. -/
def consult (env : Environment) (k : Key) : Except UsageError Progress :=
  match k.value? env with
  | some text => if k ∈ p.given then .ok p else p.give k text
  | none => .ok p

end Progress

/-- The settings of the arguments, else of the environment, else by default; not yet judged. -/
def settings (args : List String) (env : Environment) : Except Stop Settings := do
  let p ← args.foldlM Progress.next {}
  let p ← (p.settle >>= fun p => Key.all.foldlM (·.consult env ·) p).mapError .usage
  pure p.settings

/-- The settings that a load test is started with. -/
def load (args : List String) (env : Environment) : Except Stop Settings := do
  let s ← settings args env
  s.accept.mapError .invalid

end CommandLine

end OrderBench
