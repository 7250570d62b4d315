import OrderBench.Proofs.Lists
import OrderBench.Summary.Latency

/-!
Latencies in order. The order of the samples is total, and two samples that tie in it are the same to the bit, so
any arrangement of them is sorted into one list.
-/
namespace OrderBench

namespace Binary64

theorem orderKey_injective {x y : Binary64} (h : x.orderKey = y.orderKey) : x = y := by
  have hx := x.bits.toNat_lt
  have hy := y.bits.toNat_lt
  have hbits : x.bits.toNat = y.bits.toNat := by
    simp only [orderKey, isNegative, magnitude, signBit] at h
    by_cases hs : 0x8000000000000000 ≤ x.bits.toNat <;> by_cases ht : 0x8000000000000000 ≤ y.bits.toNat <;>
      simp only [hs, ht, decide_true, decide_false, if_true, if_false, Bool.false_eq_true] at h <;> omega
  obtain ⟨a⟩ := x
  obtain ⟨b⟩ := y
  exact congrArg Binary64.mk (UInt64.toNat_inj.mp hbits)

end Binary64

namespace Latency

theorem sort_perm (samples : List Binary64) : (sort samples).Perm samples := List.mergeSort_perm _ _

theorem sort_sorted (samples : List Binary64) : (sort samples).Pairwise fun x y => x.orderKey ≤ y.orderKey :=
  pairwise_mergeSort_of_total (r := fun x y : Binary64 => x.orderKey ≤ y.orderKey)
    (fun _ _ _ => Int.le_trans) (fun _ _ => Int.le_total _ _) samples

theorem sort_eq_of_perm {samples others : List Binary64} (h : samples.Perm others) : sort samples = sort others := by
  refine List.Perm.eq_of_pairwise ?_ (sort_sorted samples) (sort_sorted others)
    ((sort_perm samples).trans (h.trans (sort_perm others).symm))
  intro a b _ _ hab hba
  exact Binary64.orderKey_injective (Int.le_antisymm hab hba)

theorem ofSamples_eq_of_perm {samples others : List Binary64} (h : samples.Perm others) :
    ofSamples samples = ofSamples others := by
  rw [ofSamples, ofSamples, sort_eq_of_perm h]

end Latency

end OrderBench
