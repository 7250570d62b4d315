import OrderBench.Number.Binary64
import Mathlib.Algebra.Order.Field.Basic
import Mathlib.Data.Nat.Log
import Mathlib.Tactic.FieldSimp
import Mathlib.Tactic.Linarith
import Mathlib.Tactic.NormNum
import Mathlib.Tactic.Positivity
import Mathlib.Tactic.Ring

/-!
How far a rounded number may be from the fraction that it stands for: half a unit, and half of the last of 53
significant bits.
-/
namespace OrderBench

/-! Rounding to a natural. -/

theorem roundHalfEven_le {num den k : Nat} (hd : 0 < den) (h : num ≤ k * den) : roundHalfEven num den ≤ k := by
  have hdiv := Nat.div_add_mod num den
  have hfloor : num / den ≤ k := Nat.div_le_of_le_mul (by rwa [Nat.mul_comm] at h)
  unfold roundHalfEven
  dsimp only
  split
  · exact hfloor
  · next hup =>
    refine Nat.lt_of_le_of_ne hfloor ?_
    -- nothing is left to be rounded up at `k` itself
    rintro rfl
    have hrest : num % den = 0 := by
      rw [Nat.mul_comm] at h
      omega
    exact hup (.inl (by omega))

theorem le_roundHalfEven {num den k : Nat} (hd : 0 < den) (h : k * den ≤ num) : k ≤ roundHalfEven num den := by
  have hfloor : k ≤ num / den := (Nat.le_div_iff_mul_le hd).mpr h
  unfold roundHalfEven
  dsimp only
  split
  · exact hfloor
  · exact Nat.le_succ_of_le hfloor

theorem roundHalfEven_near (num : Nat) {den : Nat} (hd : 0 < den) :
    2 * num ≤ 2 * (roundHalfEven num den * den) + den ∧ 2 * (roundHalfEven num den * den) ≤ 2 * num + den := by
  have hdiv := Nat.div_add_mod' num den
  have hmod := Nat.mod_lt num hd
  unfold roundHalfEven
  dsimp only
  generalize num % den = rest at hdiv hmod ⊢
  split
  · generalize num / den * den = product at hdiv ⊢
    omega
  · rw [Nat.add_mul, Nat.one_mul]
    generalize num / den * den = product at hdiv ⊢
    omega

theorem roundHalfEven_error (num : Nat) {den : Nat} (hd : 0 < den) :
    |(roundHalfEven num den : ℚ) - num / den| ≤ 1 / 2 := by
  have hpos : (0 : ℚ) < den := by exact_mod_cast hd
  have hnear := roundHalfEven_near num hd
  generalize roundHalfEven num den = r at hnear ⊢
  have hlow : (2 * num : ℚ) ≤ 2 * (r * den) + den := by exact_mod_cast hnear.1
  have hhigh : (2 * (r * den) : ℚ) ≤ 2 * num + den := by exact_mod_cast hnear.2
  have hquot : (r : ℚ) - num / den = (r * den - num) / den := by field_simp
  rw [hquot, abs_div, abs_of_pos hpos, div_le_iff₀ hpos, abs_le]
  constructor <;> linarith

namespace Binary64

/-! Bits. -/

theorem magnitude_ofMagnitude (negative : Bool) {m : Nat} (h : m < signBit) : (ofMagnitude negative m).magnitude = m := by
  have hbits : signBit + m < UInt64.size := by
    unfold signBit at h ⊢
    rw [UInt64.size]
    omega
  unfold magnitude ofMagnitude
  dsimp only
  cases negative with
  | false => 
      rw [if_neg Bool.false_ne_true, UInt64.toNat_ofNat_of_lt' (by omega), Nat.mod_eq_of_lt h]
  | true => rw [if_pos rfl, UInt64.toNat_ofNat_of_lt' hbits, Nat.add_mod_left, Nat.mod_eq_of_lt h]

theorem infinityMagnitude_lt : infinityMagnitude < signBit := by decide

/-- The exponent of the step between neighbours of a fraction of units. -/
def step (num den : Nat) : Nat := (num / den).log2 - 52

/-- The bits of the magnitude that a fraction is rounded to, before it is cut at infinity. -/
def roundedMagnitude (num den : Nat) : Nat := step num den * binade + roundHalfEven num (den <<< step num den)

theorem magnitude_ofUnits (negative : Bool) (num den : Nat) :
    (ofUnits negative num den).magnitude = min (roundedMagnitude num den) infinityMagnitude :=
  magnitude_ofMagnitude negative (Nat.lt_of_le_of_lt (Nat.min_le_right ..) infinityMagnitude_lt)

theorem units_of_magnitude {x : Binary64} {s r : Nat} (hx : x.magnitude = s * binade + r) (hr : r ≤ 2 * binade)
    (hs : s = 0 ∨ binade ≤ r) : x.units = r <<< s := by
  unfold units significand shift
  rw [hx]
  unfold binade at hr hs ⊢
  obtain hr | rfl := Nat.lt_or_eq_of_le hr
  · by_cases hlow : s * 0x10000000000000 + r < 0x10000000000000
    · have hexp : (s * 0x10000000000000 + r) / 0x10000000000000 - 1 = s := by omega
      rw [if_pos hlow, hexp]
      congr 1
      omega
    · have hexp : (s * 0x10000000000000 + r) / 0x10000000000000 - 1 = s := by omega
      rw [if_neg hlow, hexp]
      congr 1
      omega
  · -- the significand has carried into the exponent
    have hexp : (s * 0x10000000000000 + 2 * 0x10000000000000) / 0x10000000000000 - 1 = s + 1 := by omega
    have hrest : (s * 0x10000000000000 + 2 * 0x10000000000000) % 0x10000000000000 = 0 := by omega
    rw [if_neg (by omega), hexp, hrest, Nat.shiftLeft_eq, Nat.shiftLeft_eq, Nat.pow_succ]
    ring

theorem units_eq_zero_iff (x : Binary64) : x.units = 0 ↔ x.isZero = true := by
  unfold units significand isZero binade
  have hpow := Nat.two_pow_pos x.shift
  rw [Nat.shiftLeft_eq, Nat.mul_eq_zero, decide_eq_true_iff]
  split <;> omega

/-! Rounding to a number. -/

theorem binade_eq : binade = 2 ^ 52 := by decide

section
variable {num den : Nat} (hd : 0 < den)
include hd

theorem step_pos : 0 < den <<< step num den := by
  rw [Nat.shiftLeft_eq]
  exact Nat.mul_pos hd (Nat.two_pow_pos _)

theorem significand_le : roundHalfEven num (den <<< step num den) ≤ 2 * binade := by
  have hlog : (num / den).log2 + 1 ≤ 53 + step num den := by
    unfold step
    omega
  refine roundHalfEven_le (step_pos hd) (Nat.le_of_lt ?_)
  calc
    num < 2 ^ ((num / den).log2 + 1) * den := (Nat.div_lt_iff_lt_mul hd).mp Nat.lt_log2_self
    _ ≤ 2 ^ (53 + step num den) * den := Nat.mul_le_mul_right den (Nat.pow_le_pow_right (by decide) hlog)
    _ = 2 * binade * den <<< step num den := by
      rw [Nat.shiftLeft_eq, binade_eq, Nat.pow_add]
      ring

/-- Where neighbours are more than a unit apart there are at least 53 significant bits before the point. -/
theorem binade_le (hs : 0 < step num den) : binade * den <<< step num den ≤ num := by
  have hlog : (num / den).log2 = 52 + step num den := by
    unfold step at hs ⊢
    omega
  have hne : num / den ≠ 0 := by
    intro h
    rw [h, Nat.log2_zero] at hlog
    omega
  calc
    binade * den <<< step num den = 2 ^ (num / den).log2 * den := by
      rw [Nat.shiftLeft_eq, binade_eq, hlog, Nat.pow_add]
      ring
    _ ≤ num := (Nat.le_div_iff_mul_le hd).mp (Nat.log2_self_le hne)

theorem units_ofUnits (negative : Bool) (h : roundedMagnitude num den ≤ infinityMagnitude) :
    (ofUnits negative num den).units = roundHalfEven num (den <<< step num den) <<< step num den := by
  have hm := magnitude_ofUnits negative num den
  rw [Nat.min_eq_left h] at hm
  refine units_of_magnitude hm (significand_le hd) ?_
  obtain hs | hs := Nat.eq_zero_or_pos (step num den)
  · exact .inl hs
  · exact .inr (le_roundHalfEven (step_pos hd) (binade_le hd hs))

theorem units_error (negative : Bool) (h : roundedMagnitude num den ≤ infinityMagnitude) :
    |((ofUnits negative num den).units : ℚ) - num / den| ≤ 1 / 2 + num / den / 2 ^ 53 := by
  have hden : (0 : ℚ) < den := by exact_mod_cast hd
  have hpow : (0 : ℚ) < 2 ^ step num den := by positivity
  have hscaled : |(roundHalfEven num (den <<< step num den) : ℚ) - num / (den <<< step num den : Nat)| ≤ 1 / 2 :=
    roundHalfEven_error num (step_pos hd)
  have hstep : (2 ^ step num den : ℚ) / 2 ≤ 1 / 2 + num / den / 2 ^ 53 := by
    obtain hs | hs := Nat.eq_zero_or_pos (step num den)
    · rw [hs, pow_zero]
      have : (0 : ℚ) ≤ num / den / 2 ^ 53 := by positivity
      linarith
    · have hle := binade_le hd hs
      rw [Nat.shiftLeft_eq, binade_eq] at hle
      have hle : (2 ^ 52 * (den * 2 ^ step num den) : ℚ) ≤ num := by exact_mod_cast hle
      have hquot : (2 ^ 52 * 2 ^ step num den : ℚ) ≤ num / den := by
        rw [le_div_iff₀ hden]
        linarith
      linarith
  rw [units_ofUnits hd negative h]
  generalize roundHalfEven num (den <<< step num den) = r at hscaled ⊢
  rw [Nat.shiftLeft_eq, Nat.cast_mul, Nat.cast_pow, Nat.cast_ofNat] at hscaled
  rw [Nat.shiftLeft_eq, Nat.cast_mul, Nat.cast_pow, Nat.cast_ofNat]
  have hunscaled : (r : ℚ) * 2 ^ step num den - num / den =
      (r - num / (den * 2 ^ step num den)) * 2 ^ step num den := by
    field_simp
  rw [hunscaled, abs_mul, abs_of_pos hpow]
  linarith [mul_le_mul_of_nonneg_right hscaled hpow.le]

omit hd in
theorem shiftLeft_mul (k s : Nat) : k <<< s * den = k * (den <<< s) := by
  rw [Nat.shiftLeft_eq, Nat.shiftLeft_eq]
  ring

/-- The greatest finite number, in units. -/
def greatest : Nat := (2 * binade - 1) <<< 2045

omit hd in
theorem greatest_lt : greatest < 2 ^ 2098 := by decide +kernel

theorem roundedMagnitude_lt (h : num ≤ greatest * den) : roundedMagnitude num den < infinityMagnitude := by
  have hcomm : num ≤ den * greatest := Nat.mul_comm greatest den ▸ h
  have hle : num / den ≤ greatest := Nat.div_le_of_le_mul hcomm
  have hquot : num / den < 2 ^ 2098 := hle.trans_lt greatest_lt
  have hstep : step num den ≤ 2045 := by
    unfold step
    obtain h0 | h0 := Nat.eq_zero_or_pos (num / den)
    · simp [h0]
    · have := (Nat.log2_lt (by omega)).mpr hquot
      omega
  have hle : roundHalfEven num (den <<< step num den) ≤ 2 * binade := significand_le hd
  unfold roundedMagnitude infinityMagnitude
  obtain hs | hs := Nat.lt_or_eq_of_le hstep
  · unfold binade at hle ⊢
    omega
  · have hle : roundHalfEven num (den <<< step num den) ≤ 2 * binade - 1 := by
      refine roundHalfEven_le (step_pos hd) ?_
      rw [hs, ← shiftLeft_mul]
      exact h
    rw [hs] at hle ⊢
    unfold binade at hle ⊢
    omega

theorem isFinite_ofUnits (negative : Bool) (h : num ≤ greatest * den) : (ofUnits negative num den).isFinite = true := by
  rw [isFinite, decide_eq_true_iff, magnitude_ofUnits]
  exact Nat.lt_of_le_of_lt (Nat.min_le_left ..) (roundedMagnitude_lt hd h)

/-- A rounded number is within a tenth and half a unit of the fraction. -/
theorem units_near (negative : Bool) (h : num ≤ greatest * den) :
    9 * num ≤ 10 * ((ofUnits negative num den).units * den) + 5 * den ∧
      10 * ((ofUnits negative num den).units * den) ≤ 11 * num + 5 * den := by
  have hden : (0 : ℚ) < den := by exact_mod_cast hd
  have herror := units_error hd negative (roundedMagnitude_lt hd h).le
  generalize (ofUnits negative num den).units = u at herror ⊢
  have hquot : (0 : ℚ) ≤ num / den := by positivity
  obtain ⟨hlow, hhigh⟩ := abs_le.mp herror
  have hlow : (9 : ℚ) * (num / den) ≤ 10 * u + 5 := by linarith
  have hhigh : (10 : ℚ) * u ≤ 11 * (num / den) + 5 := by linarith
  rw [← mul_le_mul_iff_left₀ hden] at hlow hhigh
  constructor
  · have : (9 * num : ℚ) ≤ 10 * (u * den) + 5 * den := by
      field_simp at hlow
      linarith
    exact_mod_cast this
  · have : (10 * (u * den) : ℚ) ≤ 11 * num + 5 * den := by
      field_simp at hhigh
      linarith
    exact_mod_cast this

end

theorem isZero_ofUnits (negative : Bool) {num den : Nat} (h : 2 * num < den) : (ofUnits negative num den).isZero = true := by
  have hquot : num / den = 0 := Nat.div_eq_of_lt (by omega)
  have hstep : step num den = 0 := by rw [step, hquot, Nat.log2_zero]
  have hround : roundHalfEven num den = 0 := by
    unfold roundHalfEven
    dsimp only
    rw [Nat.mod_eq_of_lt (by omega), if_pos (.inl h), hquot]
  rw [isZero, decide_eq_true_iff, magnitude_ofUnits, roundedMagnitude, hstep, Nat.shiftLeft_zero, hround]
  rfl

/-! Operations on finite numbers. -/

theorem not_special {x : Binary64} (h : x.isFinite = true) : x.isNaN = false ∧ x.isInfinite = false := by
  simp only [isFinite, isNaN, isInfinite, decide_eq_true_eq, decide_eq_false_iff_not] at h ⊢
  omega

theorem isFinite_of_isZero {x : Binary64} (h : x.isZero = true) : x.isFinite = true := by
  simp only [isZero, isFinite, decide_eq_true_eq] at h ⊢
  rw [h]
  decide

section
variable {x y : Binary64} (hx : x.isFinite = true) (hy : y.isFinite = true)
include hx hy

theorem mul_eq : x * y = ofUnits (x.isNegative != y.isNegative) (x.units * y.units) one := by
  obtain ⟨hxn, hxi⟩ := not_special hx
  obtain ⟨hyn, hyi⟩ := not_special hy
  change mul x y = _
  simp [mul, hxn, hxi, hyn, hyi]

theorem div_eq (h : 0 < y.units) :
    x / y = ofUnits (x.isNegative != y.isNegative) (x.units * one) y.units := by
  obtain ⟨hxn, hxi⟩ := not_special hx
  obtain ⟨hyn, hyi⟩ := not_special hy
  have hyz : y.isZero = false := by
    rw [← Bool.not_eq_true, ← units_eq_zero_iff]
    omega
  change div x y = _
  simp [div, hxn, hxi, hyn, hyi, hyz]

end

theorem isZero_neg (x : Binary64) : (-x).isZero = x.isZero := by
  change (neg x).isZero = _
  have hlt : x.magnitude < signBit := Nat.mod_lt _ (by decide)
  rw [isZero, neg, magnitude_ofMagnitude _ hlt, isZero]

end Binary64

end OrderBench
