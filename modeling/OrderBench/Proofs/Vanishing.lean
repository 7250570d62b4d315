import OrderBench.Json.Number
import OrderBench.Proofs.Rounding
import Mathlib.Tactic.GCongr

/-!
A number literal of at most `1e-324` in absolute value is read as zero, however it is written: the digits that
are read are never more than the literal, and what is left of them is less than half the least positive number.
-/
namespace OrderBench

open Binary64

namespace Number

/-! Powers of ten. -/

theorem pow_le_greatest : 10 ^ 308 * one ≤ greatest * 1 := by decide +kernel

theorem one_lt_pow : 100 * one ≤ 21 * (10 ^ 16 * 10 ^ 308) := by decide +kernel

theorem powerOfTen_near {n : Nat} (h : n ≤ 308) :
    (powerOfTen n).isFinite = true ∧ 8 * (10 ^ n * one) ≤ 10 * (powerOfTen n).units := by
  have hle : 10 ^ n * one ≤ greatest * 1 := by
    refine le_trans ?_ pow_le_greatest
    gcongr
    decide
  refine ⟨isFinite_ofUnits Nat.one_pos false hle, ?_⟩
  have hnear := (units_near Nat.one_pos false hle).1
  have hlarge : 5 ≤ 10 ^ n * one := (by decide +kernel : 5 ≤ one).trans (Nat.le_mul_of_pos_left _ (by positivity))
  change _ ≤ 10 * (ofUnits false (10 ^ n * one) 1).units
  omega

theorem powerOfTen_pos {n : Nat} (h : n ≤ 308) : 0 < (powerOfTen n).units := by
  have hnear := (powerOfTen_near h).2
  have hlarge : 0 < 10 ^ n * one := Nat.mul_pos (by positivity) (by decide +kernel)
  omega

/-! Scaling down. -/

theorem isZero_div_powerOfTen {x : Binary64} {n : Nat} (hx : x.isFinite = true) (hn : n ≤ 308)
    (h : 2 * (x.units * one) < (powerOfTen n).units) : (x / powerOfTen n).isZero = true := by
  rw [div_eq hx (powerOfTen_near hn).1 (powerOfTen_pos hn)]
  exact isZero_ofUnits _ h

theorem isZero_scaleDown_zero {x : Binary64} (hx : x.isZero = true) (n : Nat) : (scaleDown x n).isZero = true := by
  rw [scaleDown]
  split
  · next hn =>
    have hpos := powerOfTen_pos hn
    refine isZero_div_powerOfTen (isFinite_of_isZero hx) hn ?_
    rw [(units_eq_zero_iff x).mpr hx]
    omega
  · exact hx

theorem isZero_scaleDown {x : Binary64} {n : Nat} (hx : x.isFinite = true)
    (h : 2 * (x.units * one) < (powerOfTen (min n 308)).units) : (scaleDown x n).isZero = true := by
  rw [scaleDown]
  split
  · next hn =>
    rw [Nat.min_eq_left hn] at h
    exact isZero_div_powerOfTen hx hn h
  · next hn =>
    rw [Nat.min_eq_right (by omega)] at h
    split
    · next hz => exact hz
    · exact isZero_scaleDown_zero (isZero_div_powerOfTen hx (Nat.le_refl 308) h) _

/-- The arithmetic of two divisions, the first by `10 ^ 308`, each result within a tenth and half a unit. -/
theorem quotient_lt {d x p y unit power rest : Nat} (hunit : 0 < unit) (hpower : 0 < power)
    (hx : 10 * x ≤ 12 * (d * unit)) (hp : 8 * (power * unit) ≤ 10 * p) (hy : 10 * (y * p) ≤ 11 * (x * unit) + 5 * p)
    (hsmall : 100 * unit ≤ 21 * (10 ^ 16 * power)) (hd : d * 10 ^ 16 ≤ rest) (hrest : 10 ^ 16 ≤ rest) :
    20 * y < 8 * rest := by
  by_contra hcontra
  have hcontra : 8 * rest ≤ 20 * y := Nat.le_of_not_lt hcontra
  have hscaled : 39 * (rest * p) ≤ 110 * (x * unit) := by
    have := Nat.mul_le_mul_right p hcontra
    have := Nat.mul_le_mul_right p hrest
    linarith
  have hproduct : 312 * (rest * power) * unit ≤ 1320 * (d * unit) * unit := by
    have := Nat.mul_le_mul_left rest hp
    have := Nat.mul_le_mul_right unit hx
    linarith
  have hfactors : 312 * (rest * power) ≤ 1320 * (d * unit) := Nat.le_of_mul_le_mul_right hproduct hunit
  have hless : 1320 * (d * (100 * unit)) ≤ 27720 * (rest * power) := by
    have := Nat.mul_le_mul_left d hsmall
    have := Nat.mul_le_mul_right power hd
    linarith
  have hpos : 0 < rest * power := Nat.mul_pos (by omega) hpower
  linarith

theorem le_of_pow_le {d k n : Nat} (hd : 0 < d) (h : d * 10 ^ k ≤ 10 ^ n) : k ≤ n :=
  (Nat.pow_le_pow_iff_right (by decide)).mp ((Nat.le_mul_of_pos_left _ hd).trans h)

/-- What the digits of a vanishing literal leave of the powers of ten after the first division. -/
theorem digits_le {d n : Nat} (hd : d ≤ maxUnsigned) (h : d * 10 ^ 324 ≤ 10 ^ n) (hn : 324 ≤ n) :
    d * 10 ^ 16 ≤ 10 ^ min (n - 308) 308 := by
  obtain hmin | hmin := Nat.le_total (n - 308) 308
  · have hpow : (10 : Nat) ^ n = 10 ^ (n - 308) * 10 ^ 308 := by
      rw [← Nat.pow_add, Nat.sub_add_cancel (by omega)]
    have hsplit : (10 : Nat) ^ 324 = 10 ^ 16 * 10 ^ 308 := by rw [← Nat.pow_add]
    rw [hpow, hsplit, ← Nat.mul_assoc] at h
    rw [Nat.min_eq_left hmin]
    exact Nat.le_of_mul_le_mul_right h (by positivity)
  · rw [Nat.min_eq_right hmin]
    refine (Nat.mul_le_mul_right _ hd).trans ?_
    decide +kernel

theorem ofNat_near {d : Nat} (hd : d ≤ maxUnsigned) (hpos : 0 < d) :
    (ofNat d).isFinite = true ∧ 10 * (ofNat d).units ≤ 12 * (d * one) := by
  have hle : d * one ≤ greatest * 1 := (Nat.mul_le_mul_right one hd).trans (by decide +kernel)
  refine ⟨isFinite_ofUnits Nat.one_pos false hle, ?_⟩
  have hnear := (units_near Nat.one_pos false hle).2
  have hlarge : 5 ≤ d * one := (by decide +kernel : 5 ≤ one).trans (Nat.le_mul_of_pos_left _ hpos)
  change 10 * (ofUnits false (d * one) 1).units ≤ _
  omega

/-- The first division, by the greatest power of ten that a double holds. -/
theorem quotient_near {d : Nat} (hd : d ≤ maxUnsigned) (hpos : 0 < d) :
    (ofNat d / powerOfTen 308).isFinite = true ∧
      10 * ((ofNat d / powerOfTen 308).units * (powerOfTen 308).units) ≤
        11 * ((ofNat d).units * one) + 5 * (powerOfTen 308).units := by
  obtain ⟨hfinite, hunits⟩ := ofNat_near hd hpos
  obtain ⟨hpf, hpn⟩ := powerOfTen_near (Nat.le_refl 308)
  have hpp := powerOfTen_pos (Nat.le_refl 308)
  have hlow : one ≤ (powerOfTen 308).units := by
    have := Nat.le_mul_of_pos_left one (Nat.pow_pos (n := 308) (by decide : 0 < 10))
    omega
  have hhigh : (ofNat d).units ≤ greatest := by
    have hcap : 12 * (maxUnsigned * one) ≤ 10 * greatest := by decide +kernel
    have := Nat.mul_le_mul_right one hd
    omega
  have hquot : (ofNat d).units * one ≤ greatest * (powerOfTen 308).units := Nat.mul_le_mul hhigh hlow
  rw [div_eq hfinite hpf hpp]
  exact ⟨isFinite_ofUnits hpp _ hquot, (units_near hpp _ hquot).2⟩

theorem isZero_scaleDown_ofNat {d n : Nat} (hd : d ≤ maxUnsigned) (h : d * 10 ^ 324 ≤ 10 ^ n) :
    (scaleDown (.ofNat d) n).isZero = true := by
  obtain rfl | hpos := Nat.eq_zero_or_pos d
  · exact isZero_scaleDown_zero (by decide +kernel) n
  have hn : 324 ≤ n := le_of_pow_le hpos h
  rw [scaleDown, if_neg (by omega)]
  split
  · next hz => exact hz
  · obtain ⟨hfinite, hnear⟩ := quotient_near hd hpos
    refine isZero_scaleDown hfinite ?_
    have hless := quotient_lt (by decide +kernel) (by positivity) (ofNat_near hd hpos).2
      (powerOfTen_near (Nat.le_refl 308)).2 hnear one_lt_pow (digits_le hd h hn)
      (Nat.pow_le_pow_right (by decide) (by omega))
    have hscaled := Nat.mul_lt_mul_of_pos_right hless (by decide +kernel : 0 < one)
    rw [Nat.mul_assoc, Nat.mul_assoc] at hscaled
    have hpower := (powerOfTen_near (Nat.min_le_right (n - 308) 308)).2
    omega

/-! Literals. -/

namespace Literal

variable (l : Literal)

def power : Int :=
  match l.exponent with
  | none => 0
  | some (negative, ds) => if negative then -ofDigits ds else ofDigits ds

/-- The number that the literal stands for, before any rounding. -/
def exact : ℚ :=
  (if l.negative then -1 else 1) * ofDigits (l.whole ++ l.fraction) * 10 ^ (l.power - l.fraction.length)

end Literal

theorem foldl_digits (n : Nat) (ds : List Nat) :
    ds.foldl (fun n d => 10 * n + d) n = n * 10 ^ ds.length + ofDigits ds := by
  induction ds generalizing n with
  | nil => simp [ofDigits]
  | cons d ds ih =>
      have hcons : ofDigits (d :: ds) = (10 * 0 + d) * 10 ^ ds.length + ofDigits ds := ih _
      rw [List.foldl_cons, ih, hcons, List.length_cons, Nat.pow_succ]
      ring

theorem ofDigits_append (ds es : List Nat) : ofDigits (ds ++ es) = ofDigits ds * 10 ^ es.length + ofDigits es := by
  rw [← foldl_digits]
  exact List.foldl_append

theorem appendDigits_eq (n : Nat) (ds : List Nat) :
    ∃ used, ds = used ++ (appendDigits n ds).2 ∧
      (appendDigits n ds).1 = n * 10 ^ used.length + ofDigits used := by
  fun_induction appendDigits n ds with
  | case1 n => exact ⟨[], rfl, by simp [ofDigits]⟩
  | case2 n d ds _ ih =>
      obtain ⟨used, hds, hn⟩ := ih
      refine ⟨d :: used, by rw [List.cons_append, ← hds], ?_⟩
      rw [hn, ← foldl_digits, ← foldl_digits, List.foldl_cons]
  | case3 n d ds _ => exact ⟨[], rfl, by simp [ofDigits]⟩

theorem appendDigits_le {n : Nat} (h : n ≤ maxUnsigned) (ds : List Nat) : (appendDigits n ds).1 ≤ maxUnsigned := by
  fun_induction appendDigits n ds with
  | case1 n => exact h
  | case2 n d ds hle ih => exact ih hle
  | case3 n d ds _ => exact h

/-- The first digit that is dropped would not have fit. -/
theorem maxUnsigned_lt_dropped {n d : Nat} {ds rest : List Nat} (h : (appendDigits n ds).2 = d :: rest) :
    maxUnsigned < 10 * (appendDigits n ds).1 + d := by
  fun_induction appendDigits n ds with
  | case1 n => cases h
  | case2 n d ds _ ih => exact ih h
  | case3 n d ds hlt =>
      cases h
      exact Nat.lt_of_not_le hlt

theorem dropped_le {d : Nat} {ds rest : List Nat} (h : (appendDigits 0 ds).2 = d :: rest) :
    (10 * (appendDigits 0 ds).1 + d) * 10 ^ rest.length ≤ ofDigits ds := by
  obtain ⟨used, hds, hhead⟩ := appendDigits_eq 0 ds
  have hd : ofDigits [d] = d := by simp [ofDigits]
  rw [h] at hds
  rw [hhead, hds, List.append_cons, ofDigits_append, ofDigits_append, hd, List.length_singleton, Nat.pow_one, Nat.zero_mul,
    Nat.zero_add, Nat.mul_comm 10]
  exact Nat.le_add_right ..

/-- A digit that is appended after others were dropped moves the point, but not beyond the first of these. -/
theorem appendDigits_le_dropped {n d : Nat} (h : maxUnsigned < 10 * n + d) (hn : n ≤ maxUnsigned) (ds : List Nat) :
    (appendDigits n ds).1 * 10 ^ ((appendDigits n ds).2.length + 1) ≤ (10 * n + d) * 10 ^ ds.length := by
  obtain ⟨used, hds, hdigits⟩ := appendDigits_eq n ds
  have hmax := appendDigits_le hn ds
  have hlength : ds.length = used.length + (appendDigits n ds).2.length := by rw [← List.length_append, ← hds]
  cases used with
  | nil =>
      have hsame : (appendDigits n ds).1 = n := by simpa [ofDigits] using hdigits
      rw [hsame, hlength, List.length_nil, Nat.zero_add]
      calc
        n * 10 ^ ((appendDigits n ds).2.length + 1) = 10 * n * 10 ^ (appendDigits n ds).2.length := by ring
        _ ≤ (10 * n + d) * 10 ^ (appendDigits n ds).2.length := Nat.mul_le_mul_right _ (by omega)
  | cons e used =>
      rw [List.length_cons] at hlength
      exact Nat.mul_le_mul (by omega) (Nat.pow_le_pow_right (by decide) (by omega))

/-- The digits that are read are at most those of the literal, however many of them are left out. -/
theorem readDigits_le (l : Literal) {head digits : Nat} {dropped unread : List Nat}
    (hw : appendDigits 0 l.whole = (head, dropped)) (hf : appendDigits head l.fraction = (digits, unread)) :
    digits * 10 ^ (dropped.length + unread.length) ≤ ofDigits (l.whole ++ l.fraction) := by
  cases dropped with
  | nil =>
      obtain ⟨used, hwhole, hhead⟩ := appendDigits_eq 0 l.whole
      obtain ⟨appended, hfraction, hdigits⟩ := appendDigits_eq head l.fraction
      rw [hw, List.append_nil] at hwhole
      rw [hw, Nat.zero_mul, Nat.zero_add] at hhead
      rw [hf] at hfraction hdigits
      dsimp only at hhead hfraction hdigits
      rw [hwhole, hfraction, ← List.append_assoc, ofDigits_append, ofDigits_append, ← hhead, ← hdigits, List.length_nil,
        Nat.zero_add]
      exact Nat.le_add_right ..
  | cons d rest =>
      have hsecond : (appendDigits 0 l.whole).2 = d :: rest := congrArg Prod.snd hw
      have hover := maxUnsigned_lt_dropped hsecond
      have hwhole := dropped_le hsecond
      have hhead := appendDigits_le (Nat.zero_le _) l.whole
      rw [hw] at hover hwhole hhead
      have hdigits := appendDigits_le_dropped hover hhead l.fraction
      rw [hf] at hdigits
      calc
        digits * 10 ^ ((d :: rest).length + unread.length) = digits * 10 ^ (unread.length + 1) * 10 ^ rest.length := by
          rw [List.length_cons]
          ring
        _ ≤ (10 * head + d) * 10 ^ l.fraction.length * 10 ^ rest.length := Nat.mul_le_mul_right _ hdigits
        _ = (10 * head + d) * 10 ^ rest.length * 10 ^ l.fraction.length := by ring
        _ ≤ ofDigits l.whole * 10 ^ l.fraction.length := Nat.mul_le_mul_right _ hwhole
        _ ≤ ofDigits (l.whole ++ l.fraction) := by
          rw [ofDigits_append]
          exact Nat.le_add_right ..

theorem abs_exact (l : Literal) :
    |l.exact| = ofDigits (l.whole ++ l.fraction) * 10 ^ (l.power - l.fraction.length) := by
  have hpow : (0 : ℚ) < 10 ^ (l.power - l.fraction.length) := zpow_pos (by norm_num) _
  unfold Literal.exact
  rw [abs_mul, abs_mul, abs_of_pos hpow, Nat.abs_cast]
  cases l.negative <;> simp

theorem digits_le_exact (l : Literal) {head digits : Nat} {dropped unread : List Nat}
    (hw : appendDigits 0 l.whole = (head, dropped)) (hf : appendDigits head l.fraction = (digits, unread)) :
    (digits : ℚ) * 10 ^ ((dropped.length : Int) - (l.fraction.length - unread.length : Nat) + l.power) ≤ |l.exact| := by
  obtain ⟨appended, hfraction, -⟩ := appendDigits_eq head l.fraction
  have hlength : unread.length ≤ l.fraction.length := by
    rw [hfraction, hf, List.length_append]
    exact Nat.le_add_left ..
  have hexponent : (dropped.length : Int) - (l.fraction.length - unread.length : Nat) + l.power =
      (dropped.length + unread.length : Nat) + (l.power - l.fraction.length) := by
    omega
  have hread : (digits * 10 ^ (dropped.length + unread.length) : ℚ) ≤ ofDigits (l.whole ++ l.fraction) := by
    exact_mod_cast readDigits_le l hw hf
  rw [hexponent, zpow_add₀ (by norm_num), zpow_natCast, ← mul_assoc, abs_exact]
  exact mul_le_mul_of_nonneg_right hread (zpow_nonneg (by norm_num) _)

theorem tiny_lt_one : (10 : ℚ) ^ (-324 : Int) < 1 := zpow_lt_one_of_neg₀ (by norm_num) (by norm_num)

theorem scale_of_vanishing {d : Nat} {e : Int} (hd : d ≤ maxUnsigned) (h : (d : ℚ) * 10 ^ e ≤ 10 ^ (-324 : Int)) :
    ∃ x, scale? (.ofNat d) e = some x ∧ x.isZero = true := by
  by_cases he : e < 0
  · refine ⟨_, if_pos he, isZero_scaleDown_ofNat hd ?_⟩
    obtain ⟨n, rfl⟩ : ∃ n : Nat, e = -n := ⟨e.natAbs, by omega⟩
    rw [zpow_neg, zpow_natCast, ← div_eq_mul_inv, show (-324 : Int) = -(324 : Nat) from rfl, zpow_neg, zpow_natCast,
      ← one_div, div_le_div_iff₀ (by positivity) (by positivity), one_mul] at h
    rw [Int.natAbs_neg, Int.natAbs_natCast]
    exact_mod_cast h
  · have hzero : d = 0 := by
      by_contra hne
      have hone : (1 : ℚ) ≤ d := by exact_mod_cast Nat.one_le_iff_ne_zero.mpr hne
      have hpow : (1 : ℚ) ≤ 10 ^ e := one_le_zpow₀ (by norm_num) (by omega)
      have := one_le_mul_of_one_le_of_one_le hone hpow
      linarith [tiny_lt_one]
    subst hzero
    have hx : (Binary64.ofNat 0).isZero = true := by decide +kernel
    rw [scale?, if_neg he]
    split
    · exact ⟨_, rfl, hx⟩
    · next hbig =>
      obtain ⟨hp, -⟩ := powerOfTen_near (n := e.toNat) (by omega)
      have hproduct : (Binary64.ofNat 0 * powerOfTen e.toNat).isZero = true := by
        rw [mul_eq (isFinite_of_isZero hx) hp, (units_eq_zero_iff _).mpr hx, Nat.zero_mul]
        exact isZero_ofUnits _ (by decide +kernel)
      have hfinite := (not_special (isFinite_of_isZero hproduct)).2
      exact ⟨_, by simp [hfinite], hproduct⟩

/-- A literal of at most `1e-324` in absolute value is read as zero. -/
theorem double_of_vanishing {l : Literal} (h : |l.exact| ≤ 10 ^ (-324 : Int)) :
    ∃ x, l.double? = some x ∧ x.isZero = true := by
  cases hw : appendDigits 0 l.whole with
  | mk head dropped =>
      cases hf : appendDigits head l.fraction with
      | mk digits unread =>
          have hmax : digits ≤ maxUnsigned := by
            have hle := appendDigits_le (appendDigits_le (Nat.zero_le _) l.whole) l.fraction
            rwa [hw, hf] at hle
          obtain ⟨x, hx, hz⟩ := scale_of_vanishing hmax ((digits_le_exact l hw hf).trans h)
          have hdouble : l.double? = some (if l.negative then -x else x) := by
            simp only [Literal.double?, hw, hf]
            exact congrArg (Option.map _) hx
          refine ⟨_, hdouble, ?_⟩
          split
          · rwa [isZero_neg]
          · exact hz

theorem value_of_vanishing {l : Literal} (h : |l.exact| ≤ 10 ^ (-324 : Int)) :
    ∃ n, l.value? = some n ∧ n.isZero = true := by
  obtain ⟨x, hx, hz⟩ := double_of_vanishing h
  simp only [Literal.value?]
  generalize hn : (if l.negative = true then -(ofDigits l.whole : Int) else ofDigits l.whole) = n
  split
  · next hi =>
    obtain ⟨hf, he, -⟩ := hi
    refine ⟨_, rfl, ?_⟩
    have hpower : l.power = 0 := by rw [Literal.power, he]
    rw [abs_exact, hf, List.append_nil, hpower, List.length_nil, Nat.cast_zero, sub_zero, zpow_zero, mul_one] at h
    have hzero : ofDigits l.whole = 0 := by
      have hlt : (ofDigits l.whole : ℚ) < 1 := h.trans_lt tiny_lt_one
      exact Nat.lt_one_iff.mp (by exact_mod_cast hlt)
    rw [hzero, Nat.cast_zero, neg_zero, ite_self] at hn
    rw [← hn]
    decide
  · exact ⟨.double x, by rw [hx, Option.map_some], hz⟩

end Number

end OrderBench
