import OrderBench.Order.Price
import Mathlib.Algebra.Order.Group.Unbundled.Int
import Mathlib.Algebra.Order.Ring.Abs
import Mathlib.Algebra.Order.Ring.Int

/-!
Prices and their alignment, for ticks of either sign. A price is aligned to the greatest multiple of the tick that does
not exceed it, and there are three ways in which 64 bits cannot get there.
-/
namespace OrderBench

/-- `a` is a multiple of `tick` up to `price`, and the next one is beyond it. -/
structure Aligned (price tick a : Int) : Prop where
  dvd : tick ∣ a
  le : a ≤ price
  lt : price < a + |tick|

namespace Aligned

variable {price other tick a b : Int}

theorem alignDown (price : Int) (h : tick ≠ 0) : Aligned price tick (alignDown price tick) := by
  have hdiv := Int.ediv_mul_add_emod price tick
  have hnonneg := Int.emod_nonneg price h
  have hlt := Int.emod_lt_abs price h
  refine ⟨Int.dvd_mul_left .., ?_, ?_⟩ <;> unfold OrderBench.alignDown <;> omega

theorem refl (ht : tick ≠ 0) (h : tick ∣ a) : Aligned a tick a :=
  ⟨h, Int.le_refl a, by have := abs_pos.mpr ht; omega⟩

theorem mono (h : Aligned price tick a) (h' : Aligned other tick b) (hle : price ≤ other) : a ≤ b := by
  by_contra hlt
  have hdvd : |tick| ∣ a - b := (abs_dvd _ _).mpr (Int.dvd_sub h.dvd h'.dvd)
  -- two multiples of the tick are a tick apart
  have hgap := Int.le_of_dvd (by omega) hdvd
  have := h.le
  have := h'.lt
  omega

theorem unique (h : Aligned price tick a) (h' : Aligned price tick b) : a = b :=
  Int.le_antisymm (h.mono h' (Int.le_refl price)) (h'.mono h (Int.le_refl price))

end Aligned

theorem isPrice_toInt (price : Int64) : IsPrice price.toInt :=
  ⟨price.le_toInt, Int.le_of_lt_add_one price.toInt_lt⟩

theorem toInt_ofInt_of_isPrice {a : Int} (h : IsPrice a) : (Int64.ofInt a).toInt = a :=
  Int64.toInt_ofInt_of_le h.1 (Int.lt_add_one_of_le h.2)

theorem toInt_ne_zero {tick : Int64} (h : tick ≠ 0) : tick.toInt ≠ 0 :=
  fun h0 => h (Int64.toInt_inj.mp h0)

/-- The one quotient that is no price is that of the least price by -1. -/
theorem isPrice_quotient {price tick : Int64} (ht : tick ≠ 0) :
    IsPrice (price.toInt / tick.toInt) ↔ ¬(price = .minValue ∧ tick = -1) := by
  constructor
  · rintro h ⟨rfl, rfl⟩
    revert h
    decide
  · intro h
    obtain ⟨hl, hu⟩ := isPrice_toInt price
    have hle := Int.abs_ediv_le_abs price.toInt tick.toInt
    have hlt := Int.emod_lt_abs price.toInt (toInt_ne_zero ht)
    rw [Int.abs_eq_natAbs, Int.abs_eq_natAbs] at hle
    rw [Int.abs_eq_natAbs] at hlt
    -- a quotient is no greater than what is divided, so that only 2 ^ 63 is left
    by_contra hq
    have hq : price.toInt / tick.toInt = 9223372036854775808 := by
      unfold IsPrice at hq
      omega
    have hdiv := Int.mul_ediv_add_emod price.toInt tick.toInt
    have hnonneg := Int.emod_nonneg price.toInt (toInt_ne_zero ht)
    rw [hq] at hdiv
    have hprice : price.toInt = Int64.minValue.toInt := by
      change _ = -9223372036854775808
      omega
    have htick : tick.toInt = (-1 : Int64).toInt := by
      change _ = -1
      omega
    exact h ⟨Int64.toInt_inj.mp hprice, Int64.toInt_inj.mp htick⟩

/-- What a price comes to when it is aligned to a tick: a price, or the text of a fault. -/
inductive Alignment (price tick : Int64) : Except String Int64 → Prop
  | noTick (h : tick = 0) : Alignment price tick (.error "attempt to divide by zero")
  | noQuotient (hp : price = .minValue) (ht : tick = -1) :
      Alignment price tick (.error "attempt to divide with overflow")
  | beyond {a : Int} (ht : tick ≠ 0) (hq : ¬(price = .minValue ∧ tick = -1))
      (h : Aligned price.toInt tick.toInt a) (ha : a < -2 ^ 63) :
      Alignment price tick (.error "attempt to multiply with overflow")
  | aligned {a : Int} (ht : tick ≠ 0) (hq : ¬(price = .minValue ∧ tick = -1))
      (h : Aligned price.toInt tick.toInt a) (ha : -2 ^ 63 ≤ a) : Alignment price tick (.ok (.ofInt a))

section
variable {price tick : Int64}

theorem alignPrice_eq (ht : tick ≠ 0) (hq : ¬(price = .minValue ∧ tick = -1)) {a : Int}
    (h : Aligned price.toInt tick.toInt a) :
    alignPrice price tick = if -2 ^ 63 ≤ a then .ok (.ofInt a) else .error .multiplyOverflow := by
  obtain rfl := h.unique (Aligned.alignDown price.toInt (toInt_ne_zero ht))
  have hle := h.le
  have hu := (isPrice_toInt price).2
  have hprice : IsPrice (alignDown price.toInt tick.toInt) ↔ -2 ^ 63 ≤ alignDown price.toInt tick.toInt := by
    unfold IsPrice
    omega
  rw [alignPrice, if_neg ht, if_neg (not_not.mpr ((isPrice_quotient ht).mpr hq)), ite_not]
  exact if_congr hprice rfl rfl

theorem alignment_iff (r : Except String Int64) :
    (alignPrice price tick).mapError Fault.message = r ↔ Alignment price tick r := by
  constructor
  · rintro rfl
    by_cases ht : tick = 0
    · have hr : alignPrice price tick = .error .divideByZero := if_pos ht
      exact hr ▸ .noTick ht
    · by_cases hq : price = .minValue ∧ tick = -1
      · have hr : alignPrice price tick = .error .divideOverflow := by
          rw [alignPrice, if_neg ht, if_pos ((isPrice_quotient ht).not.mpr (not_not.mpr hq))]
        exact hr ▸ .noQuotient hq.1 hq.2
      · have h := Aligned.alignDown price.toInt (toInt_ne_zero ht)
        rw [alignPrice_eq ht hq h]
        split
        · next ha => exact .aligned ht hq h ha
        · next ha => exact .beyond ht hq h (Int.not_le.mp ha)
  · intro h
    cases h with
    | noTick ht =>
        have hr : alignPrice price tick = .error .divideByZero := if_pos ht
        rw [hr]
        rfl
    | noQuotient hp ht =>
        subst hp ht
        rfl
    | beyond ht hq h ha =>
        rw [alignPrice_eq ht hq h, if_neg (Int.not_le.mpr ha)]
        rfl
    | aligned ht hq h ha =>
        rw [alignPrice_eq ht hq h, if_pos ha]
        rfl

theorem alignPrice_eq_ok_iff {p : Int64} :
    alignPrice price tick = .ok p ↔
      tick ≠ 0 ∧ ¬(price = .minValue ∧ tick = -1) ∧ Aligned price.toInt tick.toInt p.toInt := by
  constructor
  · intro hp
    have hr : Alignment price tick (.ok p) := (alignment_iff _).mp (by rw [hp]; rfl)
    cases hr with
    | @aligned a ht hq ha hl =>
        have hle := ha.le
        have hu := (isPrice_toInt price).2
        rw [toInt_ofInt_of_isPrice ⟨hl, Int.le_trans hle hu⟩]
        exact ⟨ht, hq, ha⟩
  · rintro ⟨ht, hq, ha⟩
    rw [alignPrice_eq ht hq ha, if_pos p.le_toInt, Int64.ofInt_toInt]

end

/-- The alignment of any price to any tick of 64 bits. The multiple that it comes to does not exceed the price, is
aligned itself, and grows with the price. -/
theorem alignPrice_exact (price tick : Int64) :
    (∀ r, (alignPrice price tick).mapError Fault.message = r ↔ Alignment price tick r) ∧
    (tick ≠ 0 → ∃! a, Aligned price.toInt tick.toInt a) ∧
    ∀ p, alignPrice price tick = .ok p → p ≤ price ∧ alignPrice p tick = .ok p ∧
      ∀ other q, price ≤ other → alignPrice other tick = .ok q → p ≤ q := by
  refine ⟨alignment_iff, ?_, ?_⟩
  · intro ht
    have h := Aligned.alignDown price.toInt (toInt_ne_zero ht)
    exact ⟨_, h, fun a ha => ha.unique h⟩
  · intro p hp
    obtain ⟨ht, hq, h⟩ := alignPrice_eq_ok_iff.mp hp
    refine ⟨Int64.le_iff_toInt_le.mpr h.le, ?_, ?_⟩
    · refine alignPrice_eq_ok_iff.mpr ⟨ht, ?_, .refl (toInt_ne_zero ht) h.dvd⟩
      -- every price is a multiple of -1, so that the least one comes of itself alone
      rintro ⟨rfl, rfl⟩
      have hself : price.toInt = Int64.minValue.toInt := Int.le_antisymm (Int.le_of_lt_add_one h.lt) h.le
      exact hq ⟨Int64.toInt_inj.mp hself, rfl⟩
    · intro other q hle hother
      obtain ⟨-, -, h'⟩ := alignPrice_eq_ok_iff.mp hother
      exact Int64.le_iff_toInt_le.mpr (h.mono h' (Int64.le_iff_toInt_le.mp hle))

/-- A price below zero and a negative tick, and the least price, which lies below all multiples of a million. -/
theorem alignPrice_exact_of_negatives :
    (-7 : Int64) ≤ -1 ∧ alignPrice (-7) (-7) = .ok (-7) ∧ (∃! a, Aligned (-1) (-7) a) ∧
      (alignPrice .minValue 1000000).mapError Fault.message = .error "attempt to multiply with overflow" := by
  have hp : alignPrice (-1) (-7) = .ok (-7) := by decide
  obtain ⟨-, hunique, hok⟩ := alignPrice_exact (-1) (-7)
  obtain ⟨hle, hself, -⟩ := hok (-7) hp
  have hfloor : Aligned Int64.minValue.toInt (1000000 : Int64).toInt (-9223372036855000000) := by
    refine ⟨⟨-9223372036855, ?_⟩, ?_, ?_⟩ <;> decide
  refine ⟨hle, hself, hunique (by decide), ?_⟩
  exact ((alignPrice_exact .minValue 1000000).1 _).mpr (.beyond (by decide) (by decide) hfloor (by decide))

end OrderBench
