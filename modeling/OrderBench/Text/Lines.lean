/-!
The lines of a text. A line feed ends a line, with the carriage return before it if there is one.
-/
namespace OrderBench

def dropReturn (line : String) : String :=
  match line.toList.reverse with
  | '\r' :: cs => String.ofList cs.reverse
  | _ => line

def textLines (s : String) : List String :=
  match (s.splitOn "\n").reverse with
  | [] => []
  | rest :: ended => (ended.map dropReturn).reverse ++ if rest.isEmpty then [] else [rest]

def firstLine (s : String) : String := (textLines s).headD ""

end OrderBench
