import OrderBench.Fault

/-!
Prices in minimal units, 100000000 to one USDT, and their alignment to the tick of a symbol.
-/
namespace OrderBench

def defaultTick : Int64 := 1000000

/-- The ticks of the symbols that have one of their own: 0.01 USDT and 0.001 USDT. -/
def symbolTicks : List (String × Int64) := [("BTCUSDT", 1000000), ("ETHUSDT", 100000)]

def tickSize (symbol : String) : Int64 :=
  match symbolTicks.find? (·.1 = symbol) with
  | some (_, tick) => tick
  | none => defaultTick

/-- The greatest multiple of `tick` that does not exceed `price`. -/
def alignDown (price tick : Int) : Int := price / tick * tick

/-- Whether a 64-bit price can be `n`. -/
def IsPrice (n : Int) : Prop := -9223372036854775808 ≤ n ∧ n ≤ 9223372036854775807

instance (n : Int) : Decidable (IsPrice n) := inferInstanceAs (Decidable (_ ∧ _))

/-- `price` aligned down, where the quotient and the product are prices. -/
def alignPrice (price tick : Int64) : Except Fault Int64 :=
  if tick = 0 then .error .divideByZero
  else if ¬IsPrice (price.toInt / tick.toInt) then .error .divideOverflow
  else if ¬IsPrice (alignDown price.toInt tick.toInt) then .error .multiplyOverflow
  else .ok (.ofInt (alignDown price.toInt tick.toInt))

def minRandomPrice : Int := 5000000000000

def maxRandomPrice : Int := 6000000000000

/-- The price between the two bounds that a random number picks. -/
def rawPrice (draw : Nat) : Int := minRandomPrice + draw % (maxRandomPrice - minRandomPrice + 1)

def randomPrice (tick : Int64) (draw : Nat) : Int64 := .ofInt (alignDown (rawPrice draw) tick.toInt)

theorem tickSize_eq (symbol : String) :
    tickSize symbol = 1000000 ∨ tickSize symbol = 100000 := by
  unfold tickSize
  split
  · next h =>
    have := List.mem_of_find?_eq_some h
    simp only [symbolTicks, List.mem_cons, Prod.mk.injEq, List.not_mem_nil, or_false] at this
    obtain ⟨-, h⟩ | ⟨-, h⟩ := this
    · exact .inl h
    · exact .inr h
  · exact .inl rfl

theorem rawPrice_bounds (draw : Nat) : minRandomPrice ≤ rawPrice draw ∧ rawPrice draw ≤ maxRandomPrice := by
  unfold rawPrice minRandomPrice maxRandomPrice
  omega

/-- On a random price the alignment cannot fail, so `randomPrice` needs no check. -/
theorem alignPrice_rawPrice (symbol : String) (draw : Nat) :
    alignPrice (.ofInt (rawPrice draw)) (tickSize symbol) = .ok (randomPrice (tickSize symbol) draw) := by
  obtain ⟨hl, hu⟩ := rawPrice_bounds draw
  unfold minRandomPrice at hl
  unfold maxRandomPrice at hu
  have hp : (Int64.ofInt (rawPrice draw)).toInt = rawPrice draw :=
    Int64.toInt_ofInt_of_le (by omega) (by omega)
  obtain h | h := tickSize_eq symbol <;> rw [h, alignPrice, hp]
  · have ht : (1000000 : Int64).toInt = 1000000 := rfl
    rw [if_neg (by decide), if_neg, if_neg, randomPrice] <;> simp only [ht, IsPrice, alignDown] <;> omega
  · have ht : (100000 : Int64).toInt = 100000 := rfl
    rw [if_neg (by decide), if_neg, if_neg, randomPrice] <;> simp only [ht, IsPrice, alignDown] <;> omega

end OrderBench
