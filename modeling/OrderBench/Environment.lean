/-!
The variables that a program is started with.
-/
namespace OrderBench

/-- Variables and their values; of several with one name the first counts. -/
abbrev Environment := List (String × String)

namespace Environment

/-- The value of a variable. A variable is its name, an equals sign and its value in one text, and is
found by the beginning of that text. The empty name finds none. -/
def value? (env : Environment) (name : String) : Option String :=
  if name.isEmpty then none
  else env.findSome? fun (n, v) =>
    ((name ++ "=").toList.isPrefixOf? (n ++ "=" ++ v).toList).map String.ofList

def forcesStyles (env : Environment) : Bool :=
  let isGiven (name : String) := (env.value? name).any (!·.isEmpty)
  isGiven "CLICOLOR_FORCE" && !isGiven "NO_COLOR"

end Environment

end OrderBench
