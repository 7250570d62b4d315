import OrderBench.Environment
import OrderBench.Text.Alphanumeric
import OrderBench.Text.Lines

/-!
Files of variables, one assignment a line. A value may be quoted, and may refer to other variables.
-/
namespace OrderBench

namespace EnvFile

/-- Where the reader of a value is. `quoted` says whether it is between double quotes. -/
inductive Mode
  | text (quoted : Bool)
  | single
  | escape (quoted : Bool)
  | name (quoted : Bool) (chars : List Char)
  | braced (quoted : Bool) (chars : List Char)
  | trailing
  | comment
  deriving DecidableEq

structure Scan where
  mode : Mode := .text false
  /-- The characters of the value, the last one first. -/
  output : List Char := []

namespace Scan

variable (env : Environment) (s : Scan)

def goto (mode : Mode) : Scan := { s with mode }

def put (mode : Mode) (c : Char) : Scan := ⟨mode, c :: s.output⟩

/-- Puts the value of a variable; an unknown one is empty. -/
def substitute (mode : Mode) (name : List Char) : Scan :=
  ⟨mode, ((env.value? (String.ofList name)).getD "").toList.reverse ++ s.output⟩

def text (quoted : Bool) (c : Char) : Scan :=
  match quoted, c with
  | q, '$' => s.goto (.name q [])
  | q, '\\' => s.goto (.escape q)
  | q, '"' => s.goto (.text (!q))
  | false, '\'' => s.goto .single
  | false, ' ' | false, '\t' => s.goto .trailing
  | q, c => s.put (.text q) c

/-- Reads a character; after a blank outside quotes only a comment may follow. The character that ends
a name stands for itself, even a quote. -/
def next (c : Char) : Option Scan :=
  match s.mode with
  | .text q => some (s.text q c)
  | .single => some (if c = '\'' then s.goto (.text false) else s.put .single c)
  | .escape q =>
    if "\\'\"$ ".toList.contains c then some (s.put (.text q) c)
    else if c = 'n' then some (s.put (.text q) '\n')
    else none
  | .name q name =>
    if isAlphanumeric c then some (s.goto (.name q (name ++ [c])))
    else if c = '\x7b' ∧ name = [] then some (s.goto (.braced q []))
    else if c = '$' then some (s.substitute env (.name q []) name)
    else some ((s.substitute env (.text q) name).put (.text q) c)
  | .braced q name =>
    some (if c = '\x7d' then s.substitute env (.text q) name else s.goto (.braced q (name ++ [c])))
  | .trailing =>
    if c = ' ' ∨ c = '\t' then some s else if c = '#' then some (s.goto .comment) else none
  | .comment => some s

def finish : Option String :=
  match s.mode with
  | .text false | .escape false | .trailing | .comment => some (String.ofList s.output.reverse)
  | .name false name => some (String.ofList (s.substitute env (.text false) name).output.reverse)
  | _ => none

end Scan

inductive Line
  | empty
  | assignment (name value : String)
  | malformed
  deriving DecidableEq

def skipBlanks (cs : List Char) : List Char := cs.dropWhile isBlank

/-- The name at the front of a text, and what follows it and the blanks after it. -/
def name? (cs : List Char) : Option (String × List Char) :=
  let isStart (c : Char) := c.isAlpha || c == '_'
  let isPart (c : Char) := c.isAlphanum || c == '_' || c == '.'
  if (cs.head?.map isStart).getD false then
    some (String.ofList (cs.takeWhile isPart), skipBlanks (cs.dropWhile isPart))
  else none

def value? (env : Environment) (cs : List Char) : Option String :=
  match skipBlanks cs with
  | [] | '#' :: _ => some ""
  | cs => (cs.foldlM (Scan.next env) {}).bind (·.finish env)

/-- A name and its value. The word `export` may come before, or be the name. -/
def assignment? (env : Environment) (cs : List Char) : Option (String × String) := do
  match ← name? cs with
  | (name, '=' :: rest) => pure (name, ← value? env rest)
  | ("export", rest) =>
    match ← name? rest with
    | (name, '=' :: rest) => pure (name, ← value? env rest)
    | _ => none
  | _ => none

def Line.read (env : Environment) (cs : List Char) : Line :=
  match skipBlanks (cs.reverse.dropWhile isBlank).reverse with
  | [] | '#' :: _ => .empty
  | cs => match assignment? env cs with
    | some (name, value) => .assignment name value
    | none => .malformed

/-- The environment with the variables of the lines up to the first malformed one. A variable that is
set keeps its value; none can be set to a value with a null character in it. -/
def extend (env : Environment) : List (List Char) → Option Environment
  | [] => some env
  | line :: lines => match Line.read env line with
    | .empty => extend env lines
    | .assignment name value =>
      if (env.value? name).isSome then extend env lines
      else if value.toList.contains '\x00' then none
      else extend (env ++ [(name, value)]) lines
    | .malformed => some env

end EnvFile

def Environment.withFile (env : Environment) (text : String) : Option Environment :=
  EnvFile.extend env ((textLines text).map String.toList)

end OrderBench
