import OrderBench.Proofs.Summary

/-!
Attempts in another order. A summary of them differs at most in the order of failures that were counted equally
often.
-/
namespace OrderBench

namespace Summary

theorem messageTable_perm {messages others : List String} (h : messages.Perm others) :
    (messageTable messages).Perm (messageTable others) := by
  have hcount : (fun m => (m, messages.count m)) = fun m => (m, others.count m) := by
    funext m
    rw [h.count_eq]
  rw [messageTable, messageTable, hcount]
  exact (eraseDups_perm h).map _

section
variable {attempts others : List Attempt} (h : attempts.Perm others)
include h

theorem rankErrors_perm_of_perm : (rankErrors attempts).Perm (rankErrors others) := by
  have hfailures : (failures attempts).Perm (failures others) := h.filterMap _
  exact (rankErrors_perm attempts).trans ((messageTable_perm hfailures).trans (rankErrors_perm others).symm)

/-- Both tables count down, so that the same counts stand in the same places. -/
theorem counts_rankErrors :
    (rankErrors attempts).map Prod.snd = (rankErrors others).map Prod.snd := by
  have hdown (as : List Attempt) : ((rankErrors as).map Prod.snd).Pairwise (· ≥ ·) :=
    List.pairwise_map.mpr (rankErrors_ranked as)
  refine List.Perm.eq_of_pairwise ?_ (hdown attempts) (hdown others) ((rankErrors_perm_of_perm h).map _)
  intro a b _ _ hab hba
  exact Nat.le_antisymm hba hab

theorem kindCount?_of_perm (kind : RequestKind) : kindCount? attempts kind = kindCount? others kind := by
  have hkind : (ofKind attempts kind).Perm (ofKind others kind) := h.filter _
  have hnil : ofKind attempts kind = [] ↔ ofKind others kind = [] :=
    ⟨fun he => (he ▸ hkind).nil_eq.symm, fun he => (he ▸ hkind).eq_nil⟩
  simp only [kindCount?, hnil, hkind.length_eq, hkind.countP_eq]

theorem countKinds_of_perm : countKinds attempts = countKinds others := by
  rw [countKinds_eq, countKinds_eq]
  exact List.filterMap_congr fun kind _ => kindCount?_of_perm h kind

theorem times_perm : ((attempts.filter Attempt.succeeded).map Attempt.time).Perm
    ((others.filter Attempt.succeeded).map Attempt.time) := (h.filter _).map _

end

/-- Two summaries that agree in all figures, and in their tables of failures but for the order of those with
equal counts. -/
structure AgreeUpToTies (s t : Summary) : Prop where
  total : s.total = t.total
  success : s.success = t.success
  fail : s.fail = t.fail
  elapsed : s.elapsed = t.elapsed
  qps : s.qps = t.qps
  successRate : s.successRate = t.successRate
  failRate : s.failRate = t.failRate
  byKind : s.byKind = t.byKind
  latency : s.latency = t.latency
  warmup : s.warmup = t.warmup
  errors : s.errors.Perm t.errors
  counts : s.errors.map Prod.snd = t.errors.map Prod.snd

end Summary

/-- The order in which attempts arrive does not matter to their summary. Their times are sorted into one list,
whatever numbers or others they are, so that each figure of the latencies is the same to the bit. -/
theorem summary_independent_of_order {attempts others : List Attempt} (h : attempts.Perm others)
    (elapsed : Duration) (warmup : Option Warmup) :
    (Summary.ofAttempts attempts elapsed warmup).AgreeUpToTies (Summary.ofAttempts others elapsed warmup) ∧
      Latency.sort ((attempts.filter Attempt.succeeded).map Attempt.time) =
        Latency.sort ((others.filter Attempt.succeeded).map Attempt.time) := by
  have htotal : attempts.length = others.length := h.length_eq
  have hsuccess : (attempts.filter Attempt.succeeded).length = (others.filter Attempt.succeeded).length :=
    (h.filter _).length_eq
  have hfail : attempts.length - (attempts.filter Attempt.succeeded).length =
      others.length - (others.filter Attempt.succeeded).length := by rw [htotal, hsuccess]
  refine ⟨?_, Latency.sort_eq_of_perm (Summary.times_perm h)⟩
  refine ⟨htotal, hsuccess, hfail, rfl, ?_, ?_, ?_, Summary.countKinds_of_perm h,
    Latency.ofSamples_eq_of_perm (Summary.times_perm h), rfl, Summary.rankErrors_perm_of_perm h,
    Summary.counts_rankErrors h⟩
  · simp only [Summary.ofAttempts, htotal]
  · exact congrArg₂ Summary.rate hsuccess htotal
  · exact congrArg₂ Summary.rate hfail htotal

/-- Two failures that change places, among successes whose times are both zeros, an infinity and not a number. -/
theorem summary_independent_of_order_of_ties :
    let place (time : Binary64) : Attempt := ⟨.place, 200, time, .success none⟩
    let failed (message : String) : Attempt := ⟨.cancel, 503, .zero, .failure message⟩
    let attempts := [place .nan, failed "", place (.ofMagnitude true 0), failed "gone", place (.infinity true), place .zero]
    let others := [failed "gone", place .zero, place (.infinity true), place (.ofMagnitude true 0), failed "", place .nan]
    attempts.Perm others ∧
      (Summary.ofAttempts attempts ⟨2, 0⟩ none).AgreeUpToTies (Summary.ofAttempts others ⟨2, 0⟩ none) := by
  intro place failed attempts others
  have h : attempts.Perm others := by decide
  exact ⟨h, (summary_independent_of_order h ⟨2, 0⟩ none).1⟩

end OrderBench
