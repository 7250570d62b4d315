import OrderBench.Text.Printable

/-!
Texts between quotes, as messages show them.
-/
namespace OrderBench

/-- A character inside quotes: a short escape, itself, or its code point in hexadecimal. -/
def escapeQuoted (c : Char) : List Char :=
  match c with
  | '\x00' => ['\\', '0']
  | '\t' => ['\\', 't']
  | '\n' => ['\\', 'n']
  | '\r' => ['\\', 'r']
  | '"' => ['\\', '"']
  | '\\' => ['\\', '\\']
  | c =>
    if isPrintable c then [c]
    else '\\' :: 'u' :: '\x7b' :: Nat.toDigits 16 c.toNat ++ ['\x7d']

def quoteText (s : String) : String := String.ofList ('"' :: s.toList.flatMap escapeQuoted ++ ['"'])

end OrderBench
