import OrderBench.Proofs.Latency
import OrderBench.Proofs.Rounding

/-!
Percentiles by their ranks. The fractions 0.95 and 0.99 fall short of their decimals, by less than half of their last
bit. The product with a count makes up for it where it is rounded, so that the rank is the exact one, and every
figure but the average is a sample.
-/
namespace OrderBench

namespace Binary64

theorem two_pow_dvd_one {s : Nat} (h : s ≤ 1074) : 2 ^ s ∣ one := by
  obtain ⟨k, hk⟩ := Nat.exists_eq_add_of_le h
  rw [one, hk, Nat.one_shiftLeft, Nat.pow_add]
  exact Nat.dvd_mul_right ..

theorem two_pow_mul_one (k : Nat) : 2 ^ k * one = 2 ^ (k + 1074) := by rw [one, Nat.one_shiftLeft, Nat.pow_add]

/-! Rounding to a whole number of steps. -/

section
variable {num den : Nat} (hd : 0 < den)
include hd

theorem units_within_half (negative : Bool) (h : num ≤ greatest * den) :
    2 ^ step num den ∣ (ofUnits negative num den).units ∧
      2 * num ≤ (2 * (ofUnits negative num den).units + 2 ^ step num den) * den ∧
      2 * (ofUnits negative num den).units * den ≤ 2 * num + 2 ^ step num den * den := by
  have hunit : 0 < den <<< step num den := step_pos hd
  obtain ⟨hlow, hhigh⟩ := roundHalfEven_near num hunit
  rw [units_ofUnits hd negative (roundedMagnitude_lt hd h).le]
  generalize roundHalfEven num (den <<< step num den) = r at hlow hhigh ⊢
  rw [Nat.shiftLeft_eq] at hlow hhigh
  rw [Nat.shiftLeft_eq]
  refine ⟨Nat.dvd_mul_left _ _, ?_, ?_⟩
  · calc 2 * num ≤ 2 * (r * (den * 2 ^ step num den)) + den * 2 ^ step num den := hlow
      _ = (2 * (r * 2 ^ step num den) + 2 ^ step num den) * den := by ring
  · calc 2 * (r * 2 ^ step num den) * den = 2 * (r * (den * 2 ^ step num den)) := by ring
      _ ≤ 2 * num + den * 2 ^ step num den := hhigh
      _ = 2 * num + 2 ^ step num den * den := by ring

variable {v : Nat}

theorem lt_two_pow_step : v < 2 ^ (step (v * den) den + 53) := by
  rw [step, Nat.mul_div_cancel v hd]
  exact Nat.lt_log2_self.trans_le (Nat.pow_le_pow_right (by decide) (by omega))

theorem step_le {k : Nat} (h : v < 2 ^ (k + 53)) : step (v * den) den ≤ k := by
  rw [step, Nat.mul_div_cancel v hd]
  obtain rfl | hv := Nat.eq_zero_or_pos v
  · simp
  · have := (Nat.log2_lt (by omega)).mpr h
    omega

/-- A whole number of units is the nearest number to within half a step. -/
theorem units_of_units (negative : Bool) (h : v ≤ greatest) :
    2 ^ step (v * den) den ∣ (ofUnits negative (v * den) den).units ∧
      2 * v ≤ 2 * (ofUnits negative (v * den) den).units + 2 ^ step (v * den) den ∧
      2 * (ofUnits negative (v * den) den).units ≤ 2 * v + 2 ^ step (v * den) den := by
  obtain ⟨hdvd, hlow, hhigh⟩ := units_within_half hd negative (Nat.mul_le_mul_right den h)
  refine ⟨hdvd, Nat.le_of_mul_le_mul_right (c := den) ?_ hd, Nat.le_of_mul_le_mul_right (c := den) ?_ hd⟩
  · rwa [Nat.mul_assoc]
  · rwa [Nat.add_mul, Nat.mul_assoc 2 v den]

end

theorem isNegative_ofUnits (num den : Nat) : (ofUnits false num den).isNegative = false := by
  have hlt : min (roundedMagnitude num den) infinityMagnitude < signBit :=
    Nat.lt_of_le_of_lt (Nat.min_le_right ..) infinityMagnitude_lt
  change (ofMagnitude false (min (roundedMagnitude num den) infinityMagnitude)).isNegative = false
  rw [isNegative, decide_eq_false_iff_not, ofMagnitude, if_neg Bool.false_ne_true,
    UInt64.toNat_ofNat_of_lt' (hlt.trans (by decide))]
  exact Nat.not_le.mpr hlt

/-- Two multiples of a step are at least a step apart. -/
theorem add_step_le {d a b : Nat} (ha : d ∣ a) (hb : d ∣ b) (h : a < b) : a + d ≤ b := by
  have hgap := Nat.le_of_dvd (Nat.sub_pos_of_lt h) (Nat.dvd_sub hb ha)
  omega

/-- Counts of up to 53 bits are numbers. -/
theorem units_ofNat {n : Nat} (h : n < 2 ^ 53) : (ofNat n).units = n * one ∧ (ofNat n).isFinite = true := by
  have hle : n * one ≤ greatest := (Nat.mul_le_mul_right one h.le).trans (by decide +kernel)
  have hlt : n * one < 2 ^ (1074 + 53) := by
    rw [Nat.add_comm, ← two_pow_mul_one]
    exact Nat.mul_lt_mul_of_pos_right h (by decide +kernel)
  have hnear := units_of_units Nat.one_pos false hle
  have hstep := step_le Nat.one_pos hlt
  rw [Nat.mul_one] at hnear hstep
  obtain ⟨hdvd, hlow, hhigh⟩ := hnear
  have hone : 2 ^ step (n * one) 1 ∣ n * one := (two_pow_dvd_one hstep).mul_left n
  have hpos := Nat.two_pow_pos (step (n * one) 1)
  refine ⟨Nat.le_antisymm ?_ ?_, isFinite_ofUnits Nat.one_pos false (hle.trans (Nat.le_mul_of_pos_right _ Nat.one_pos))⟩
  · by_contra hgt
    have := add_step_le hone hdvd (Nat.not_le.mp hgt)
    omega
  · by_contra hgt
    have := add_step_le hdvd hone (Nat.not_le.mp hgt)
    omega

/-! Hundredths of a count. -/

/-- The last bit of the numbers from one half up to one, in units. -/
def lastBit : Nat := 1 <<< 1021

theorem lastBit_mul : lastBit * 2 ^ 53 = one := by decide +kernel

/-- A positive number is so many hundredths, but for so many hundredths of its last bit that are missing. -/
structure FallsShort (x : Binary64) (percent gap : Nat) : Prop where
  finite : x.isFinite = true
  positive : x.isNegative = false
  units : 100 * x.units + gap * lastBit = percent * one
  percent_le : percent ≤ 100
  gap_lt : 2 * gap < percent

theorem fallsShort_50 : FallsShort (ofRatio false 50 100) 50 0 := by constructor <;> decide +kernel

theorem fallsShort_95 : FallsShort (ofRatio false 95 100) 95 40 := by constructor <;> decide +kernel

theorem fallsShort_99 : FallsShort (ofRatio false 99 100) 99 8 := by constructor <;> decide +kernel

section
variable {percent gap n v : Nat} (hv : 100 * v + gap * n * lastBit = percent * n * one) (hgap : 2 * gap < percent)
  (hle : percent ≤ 100)
include hv hgap hle

/-- What is missing of a product is less than half of its own last bit. -/
theorem missing_lt {s : Nat} (hn : 0 < n) (hlt : v < 2 ^ (s + 53)) : gap * n * lastBit < 50 * 2 ^ s := by
  have hone : 0 < n * one := Nat.mul_pos hn (by decide +kernel)
  have hmissing : gap * n * lastBit * 2 ^ 53 = gap * (n * one) := by
    rw [Nat.mul_assoc, lastBit_mul, Nat.mul_assoc]
  have hfew : gap * (n * one) ≤ 50 * (n * one) := Nat.mul_le_mul_right _ (by omega)
  have hmost : (2 * gap + 1) * (n * one) ≤ percent * (n * one) := Nat.mul_le_mul_right _ hgap
  rw [Nat.mul_assoc percent] at hv
  rw [Nat.add_mul, Nat.mul_assoc 2, Nat.one_mul] at hmost
  rw [Nat.pow_add] at hlt
  omega

/-- A product that is rounded in steps of at most a 64th comes to the floor of what it stands for. -/
theorem floor_of_near {s u : Nat} (hn : 0 < n) (hs : s ≤ 1068) (hlt : v < 2 ^ (s + 53)) (hdvd : 2 ^ s ∣ u)
    (hlow : 2 * v ≤ 2 * u + 2 ^ s) (hhigh : 2 * u ≤ 2 * v + 2 ^ s) : u / one = percent * n / 100 := by
  have hmissing := missing_lt hv hgap hle hn hlt
  have hone : 0 < one := by decide +kernel
  have hstep : 2 ^ 6 * 2 ^ s ≤ one := by
    rw [← Nat.pow_add]
    exact Nat.le_of_dvd hone (two_pow_dvd_one (by omega))
  have hfloor := Nat.mul_le_mul_right one (Nat.mul_div_le (percent * n) 100)
  have hnext := Nat.mul_le_mul_right one (Nat.lt_mul_div_succ (percent * n) (by decide : 0 < 100))
  rw [Nat.mul_assoc 100] at hfloor hnext
  rw [Nat.succ_mul] at hnext
  generalize percent * n / 100 = q at hfloor hnext ⊢
  apply Nat.div_eq_of_lt_le
  · by_contra hbelow
    -- the floor is a number itself, a whole step above what lies below it
    have hgrid : 2 ^ s ∣ q * one := (two_pow_dvd_one (by omega)).mul_left q
    have := add_step_le hdvd hgrid (Nat.not_le.mp hbelow)
    omega
  · omega

end

variable {x : Binary64} {percent gap n : Nat}

/-- The whole part of the rounded product of a fraction and a count is the exact one. -/
theorem toCount_mul_ofNat (hx : x.FallsShort percent gap) (hpos : 0 < n) (hn : n < 2 ^ 47) :
    (x * ofNat n).toCount maxCount = percent * n / 100 := by
  obtain ⟨hunits, hfinite⟩ := units_ofNat (hn.trans (by decide))
  have hone : 0 < one := by decide +kernel
  have hmul : x * ofNat n = ofUnits false (x.units * n * one) one := by
    have hsign : (ofNat n).isNegative = false := isNegative_ofUnits _ _
    rw [mul_eq hx.finite hfinite, hx.positive, hsign, hunits, Nat.mul_assoc]
    rfl
  have hv : 100 * (x.units * n) + gap * n * lastBit = percent * n * one := by
    calc 100 * (x.units * n) + gap * n * lastBit = (100 * x.units + gap * lastBit) * n := by ring
      _ = percent * n * one := by rw [hx.units]; ring
  have hlt : x.units * n < 2 ^ 47 * one := by
    have hpercent := Nat.mul_le_mul_right one hx.percent_le
    have hunit : x.units ≤ one := by have := hx.units; omega
    calc x.units * n ≤ one * n := Nat.mul_le_mul_right n hunit
      _ < one * 2 ^ 47 := Nat.mul_lt_mul_of_pos_left hn hone
      _ = 2 ^ 47 * one := Nat.mul_comm ..
  have hle : x.units * n ≤ greatest := hlt.le.trans (by decide +kernel)
  have hstep : step (x.units * n * one) one ≤ 1068 := by
    apply step_le hone
    rwa [show 1068 + 53 = 47 + 1074 from rfl, ← two_pow_mul_one]
  obtain ⟨hdvd, hlow, hhigh⟩ := units_of_units hone false hle
  have hfloor := floor_of_near hv hx.gap_lt hx.percent_le hpos hstep (lt_two_pow_step hone) hdvd hlow hhigh
  have hnormal := not_special (isFinite_ofUnits hone false (Nat.mul_le_mul_right one hle))
  have hcount : percent * n / 100 ≤ maxCount := by
    have hpercent := Nat.mul_le_mul_right n hx.percent_le
    unfold maxCount
    omega
  rw [hmul, toCount, isNegative_ofUnits, hnormal.1, hnormal.2, hfloor]
  exact Nat.min_eq_left hcount

end Binary64

/-! Samples in order. -/

section
variable {s : List Binary64} (hne : s ≠ []) (hlen : s.length < 2 ^ 47)
include hne

theorem rank_lt (rank : Nat) : min rank (s.length - 1) < s.length := by
  have := List.length_pos_of_ne_nil hne
  omega

include hlen

theorem percentile_rank {fraction : Binary64} {percent gap : Nat} (h : fraction.FallsShort percent gap) :
    s[min (percent * s.length / 100) (s.length - 1)]? = some (percentile s fraction) := by
  have hlt := rank_lt hne (percent * s.length / 100)
  have hrank := Binary64.toCount_mul_ofNat h (List.length_pos_of_ne_nil hne) hlen
  rw [percentile, hrank, List.getD_eq_getElem?_getD, List.getElem?_eq_getElem hlt, Option.getD_some]

end

/-- The figures of some samples but for their average, at their places in the sorted list. -/
structure NearestRanks (s : List Binary64) (l : Latency) : Prop where
  least : s[0]? = some l.min
  p50 : s[min (s.length / 2) (s.length - 1)]? = some l.p50
  p95 : s[min (95 * s.length / 100) (s.length - 1)]? = some l.p95
  p99 : s[min (99 * s.length / 100) (s.length - 1)]? = some l.p99
  greatest : s[s.length - 1]? = some l.max

namespace Latency

variable {samples s : List Binary64}

theorem sort_unique (hp : s.Perm samples) (hs : s.Pairwise fun x y => x.orderKey ≤ y.orderKey) : sort samples = s := by
  refine List.Perm.eq_of_pairwise ?_ (sort_sorted samples) hs ((sort_perm samples).trans hp.symm)
  intro a b _ _ hab hba
  exact Binary64.orderKey_injective (Int.le_antisymm hab hba)

theorem ofSamples_ranks (h : sort samples = s) (hne : s ≠ []) (hlen : s.length < 2 ^ 47) :
    NearestRanks s (ofSamples samples) := by
  obtain ⟨least, rest, rfl⟩ := List.exists_cons_of_ne_nil hne
  have hhalf : 50 * (least :: rest).length / 100 = (least :: rest).length / 2 := by omega
  have h50 := percentile_rank hne hlen Binary64.fallsShort_50
  rw [hhalf] at h50
  simp only [ofSamples, h]
  constructor <;> dsimp only
  · rfl
  · exact h50
  · exact percentile_rank hne hlen Binary64.fallsShort_95
  · exact percentile_rank hne hlen Binary64.fallsShort_99
  · rw [List.getLast_eq_getElem, List.getElem?_eq_getElem]

end Latency

theorem NearestRanks.mem {s : List Binary64} {l : Latency} (h : NearestRanks s l) {x : Binary64}
    (hx : x ∈ [l.min, l.p50, l.p95, l.p99, l.max]) : x ∈ s := by
  simp only [List.mem_cons, List.not_mem_nil, or_false] at hx
  obtain rfl | rfl | rfl | rfl | rfl := hx
  · exact List.mem_of_getElem? h.least
  · exact List.mem_of_getElem? h.p50
  · exact List.mem_of_getElem? h.p95
  · exact List.mem_of_getElem? h.p99
  · exact List.mem_of_getElem? h.greatest

theorem orderKey_le_of_sorted {s : List Binary64} (hs : s.Pairwise fun x y => x.orderKey ≤ y.orderKey) {i j : Nat}
    {x y : Binary64} (hi : s[i]? = some x) (hj : s[j]? = some y) (hij : i ≤ j) : x.orderKey ≤ y.orderKey := by
  obtain ⟨hli, rfl⟩ := List.getElem?_eq_some_iff.mp hi
  obtain ⟨hlj, rfl⟩ := List.getElem?_eq_some_iff.mp hj
  obtain rfl | hlt := Nat.eq_or_lt_of_le hij
  · exact Int.le_refl _
  · exact List.pairwise_iff_getElem.mp hs i j hli hlj hlt

theorem NearestRanks.bounds {s : List Binary64} {l : Latency} (h : NearestRanks s l)
    (hs : s.Pairwise fun x y => x.orderKey ≤ y.orderKey) {x : Binary64} (hx : x ∈ s) :
    l.min.orderKey ≤ x.orderKey ∧ x.orderKey ≤ l.max.orderKey := by
  obtain ⟨i, hi⟩ := List.mem_iff_getElem?.mp hx
  have hlt := (List.getElem?_eq_some_iff.mp hi).1
  exact ⟨orderKey_le_of_sorted hs h.least hi (Nat.zero_le i), orderKey_le_of_sorted hs hi h.greatest (by omega)⟩

theorem NearestRanks.ordered {s : List Binary64} {l : Latency} (h : NearestRanks s l)
    (hs : s.Pairwise fun x y => x.orderKey ≤ y.orderKey) :
    l.min.orderKey ≤ l.p50.orderKey ∧ l.p50.orderKey ≤ l.p95.orderKey ∧ l.p95.orderKey ≤ l.p99.orderKey ∧
      l.p99.orderKey ≤ l.max.orderKey :=
  ⟨orderKey_le_of_sorted hs h.least h.p50 (Nat.zero_le _), orderKey_le_of_sorted hs h.p50 h.p95 (by omega),
    orderKey_le_of_sorted hs h.p95 h.p99 (by omega), orderKey_le_of_sorted hs h.p99 h.greatest (by omega)⟩

/-- The figures of any samples, fewer than `2 ^ 47`, but for the average: samples at the exact ranks in their sorted
list, ordered among themselves, the first and the last bounding all samples. -/
theorem figures_ranked {samples s : List Binary64} (hne : samples ≠ []) (hlen : samples.length < 2 ^ 47)
    (hp : s.Perm samples) (hs : s.Pairwise fun x y => x.orderKey ≤ y.orderKey) :
    (∀ percent ∈ [50, 95, 99], (Binary64.ofRatio false percent 100 * .ofNat s.length).toCount maxCount =
      percent * s.length / 100) ∧
    NearestRanks s (.ofSamples samples) ∧
    (∀ x ∈ samples, (Latency.ofSamples samples).min.orderKey ≤ x.orderKey ∧
      x.orderKey ≤ (Latency.ofSamples samples).max.orderKey) ∧
    let l := Latency.ofSamples samples
    (∀ x ∈ [l.min, l.p50, l.p95, l.p99, l.max], x ∈ samples) ∧
      l.min.orderKey ≤ l.p50.orderKey ∧ l.p50.orderKey ≤ l.p95.orderKey ∧ l.p95.orderKey ≤ l.p99.orderKey ∧
        l.p99.orderKey ≤ l.max.orderKey := by
  have hsne : s ≠ [] := fun h => hne (h ▸ hp).nil_eq.symm
  have hslen : s.length < 2 ^ 47 := hp.length_eq ▸ hlen
  have hpos := List.length_pos_of_ne_nil hsne
  have h := Latency.ofSamples_ranks (Latency.sort_unique hp hs) hsne hslen
  refine ⟨?_, h, fun x hx => h.bounds hs (hp.mem_iff.mpr hx), fun x hx => hp.mem_iff.mp (h.mem hx), h.ordered hs⟩
  simp only [List.mem_cons, List.not_mem_nil, or_false]
  rintro percent (rfl | rfl | rfl)
  · exact Binary64.toCount_mul_ofNat Binary64.fallsShort_50 hpos hslen
  · exact Binary64.toCount_mul_ofNat Binary64.fallsShort_95 hpos hslen
  · exact Binary64.toCount_mul_ofNat Binary64.fallsShort_99 hpos hslen

/-- Twenty samples, the number at which 95 hundredths of them are first a whole number; the greatest one is no number. -/
theorem figures_ranked_of_twenty :
    let s : List Binary64 := .infinity true :: .ofMagnitude true 0 :: (List.range 17).map .ofNat ++ [.nan]
    let samples := s.reverse
    samples ≠ [] ∧ samples.length < 2 ^ 47 ∧ s.Perm samples ∧ s.Pairwise (fun x y => x.orderKey ≤ y.orderKey) ∧
      (Latency.ofSamples samples).min = .infinity true ∧ (Latency.ofSamples samples).p50 = .ofNat 8 ∧
      (Latency.ofSamples samples).p95 = .nan := by
  intro s samples
  have hne : samples ≠ [] := by decide +kernel
  have hlen : samples.length < 2 ^ 47 := by decide +kernel
  have hp : s.Perm samples := (List.reverse_perm s).symm
  have hs : s.Pairwise fun x y => x.orderKey ≤ y.orderKey := by decide +kernel
  obtain ⟨-, h, -⟩ := figures_ranked hne hlen hp hs
  refine ⟨hne, hlen, hp, hs, ?_, ?_, ?_⟩
  · exact Option.some_inj.mp (h.least.symm.trans (by decide +kernel))
  · exact Option.some_inj.mp (h.p50.symm.trans (by decide +kernel))
  · exact Option.some_inj.mp (h.p95.symm.trans (by decide +kernel))

end OrderBench
