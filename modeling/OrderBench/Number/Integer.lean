/-!
Decimal integers within limits. Of several faults the first one in the text is reported.
-/
namespace OrderBench

inductive IntegerFault
  | empty
  | invalidDigit
  | tooLarge
  | tooSmall
  deriving DecidableEq

def IntegerFault.message : IntegerFault → String
  | .empty => "cannot parse integer from empty string"
  | .invalidDigit => "invalid digit found in string"
  | .tooLarge => "number too large to fit in target type"
  | .tooSmall => "number too small to fit in target type"

/-- Appends digits to `n`; `excess` is the fault of a result beyond `limit`. -/
def readDigits (limit : Nat) (excess : IntegerFault) (n : Nat) : List Char → Except IntegerFault Nat
  | [] => .ok n
  | c :: cs =>
    if !c.isDigit then .error .invalidDigit
    else
      let next := 10 * n + (c.toNat - '0'.toNat)
      if limit < next then .error excess else readDigits limit excess next cs

/-- Digits with or without a plus. -/
def readCount (limit : Nat) (text : String) : Except IntegerFault Nat :=
  match text.toList with
  | [] => .error .empty
  | ['+'] => .error .invalidDigit
  | '+' :: cs => readDigits limit .tooLarge 0 cs
  | cs => readDigits limit .tooLarge 0 cs

/-- Digits with or without a sign. -/
def readInt64 (text : String) : Except IntegerFault Int64 :=
  match text.toList with
  | [] => .error .empty
  | ['+'] | ['-'] => .error .invalidDigit
  | '-' :: cs => (readDigits 9223372036854775808 .tooSmall 0 cs).map fun n => .ofInt (-n)
  | '+' :: cs => (readDigits 9223372036854775807 .tooLarge 0 cs).map fun n => .ofInt n
  | cs => (readDigits 9223372036854775807 .tooLarge 0 cs).map fun n => .ofInt n

end OrderBench
