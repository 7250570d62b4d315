/-!
Texts with styles. A styled piece is written between the sequence that turns its style on and the one
that ends all styles.
-/
namespace OrderBench

inductive Style
  | heading
  | literal
  | error
  | invalid
  deriving DecidableEq

/-- The numbers of the attributes: bold, underlined, red, yellow. -/
def Style.attributes : Style → List String
  | .heading => ["1", "4"]
  | .literal => ["1"]
  | .error => ["1", "31"]
  | .invalid => ["33"]

inductive Piece
  | plain (text : String)
  | styled (style : Style) (text : String)
  deriving DecidableEq

instance : Coe String Piece := ⟨.plain⟩

abbrev StyledText := List Piece

namespace Piece

def text : Piece → String
  | .plain text | .styled _ text => text

def render : Piece → String
  | .plain text => text
  | .styled style text =>
    String.join (style.attributes.map fun n => "\x1b[" ++ n ++ "m") ++ text ++ "\x1b[0m"

end Piece

namespace StyledText

def plain (text : String) : StyledText := [.plain text]

def length (t : StyledText) : Nat := (String.join (t.map Piece.text)).length

def render (t : StyledText) : String := String.join (t.map Piece.render)

end StyledText

end OrderBench
