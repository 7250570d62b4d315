import OrderBench.Proofs.ErrorTable

/-!
The ranking of the failures. Frequent messages come first, and of messages that are counted equally often the one that
was seen first; no other table lists the same failures in that order.
-/
namespace OrderBench

/-- The message that a failure is counted under. -/
inductive Attempt.FailsWith : Attempt → String → Prop
  | message {a : Attempt} {text : String} (h : a.error? = some text) (hne : text ≠ "") : FailsWith a text
  | status {a : Attempt} (hf : a.succeeded = false) (h : ∀ text, a.error? = some text → text = "") :
      FailsWith a s!"HTTP {a.status}"

theorem Attempt.failsWith_iff {a : Attempt} {m : String} : a.FailsWith m ↔ a.failure? = some m := by
  obtain ⟨kind, status, time, verdict⟩ := a
  cases verdict with
  | success id =>
      constructor
      · rintro (⟨h, -⟩ | ⟨hf, -⟩)
        · cases h
        · cases hf
      · nofun
  | failure text =>
      simp only [failure?, String.isEmpty_iff, Option.some_inj]
      constructor
      · rintro (⟨h, hne⟩ | ⟨-, h⟩)
        · cases h
          exact if_neg hne
        · exact if_pos (h text rfl)
      · rintro rfl
        split
        · next he => exact .status rfl fun _ h => Option.some_inj.mp h ▸ he
        · next hne => exact .message rfl hne

instance (a : Attempt) (m : String) : Decidable (a.FailsWith m) := decidable_of_iff _ a.failsWith_iff.symm

namespace Summary

variable {attempts : List Attempt}

/-- One message is counted more often than another, or as often and seen first. -/
def Outranks (attempts : List Attempt) (x y : String × Nat) : Prop :=
  y.2 < x.2 ∨ x.2 = y.2 ∧ attempts.findIdx (·.FailsWith x.1) < attempts.findIdx (·.FailsWith y.1)

theorem Outranks.asymm (x y : String × Nat) (h : Outranks attempts x y) : ¬Outranks attempts y x := by
  unfold Outranks at *
  omega

/-- The table lists the messages of the failures with their counts, in the order of their ranks. -/
structure Ranking (attempts : List Attempt) (table : List (String × Nat)) : Prop where
  listed : ∀ m, m ∈ table.map Prod.fst ↔ ∃ a ∈ attempts, a.FailsWith m
  once : (table.map Prod.fst).Nodup
  counts : ∀ m n, (m, n) ∈ table → n = attempts.countP (·.FailsWith m)
  ordered : ∀ (i j : Nat) (x y : String × Nat), table[i]? = some x → table[j]? = some y →
    (i < j ↔ Outranks attempts x y)

theorem mem_failures {m : String} : m ∈ failures attempts ↔ ∃ a ∈ attempts, a.FailsWith m := by
  simp only [failures, List.mem_filterMap, Attempt.failsWith_iff]

theorem count_failures (m : String) : (failures attempts).count m = attempts.countP (·.FailsWith m) := by
  rw [failures, List.count, List.countP_filterMap]
  apply List.countP_congr
  intro a _
  cases h : a.failure? <;> simp [Attempt.failsWith_iff, h]

theorem map_fst_messageTable (messages : List String) : (messageTable messages).map Prod.fst = messages.eraseDups := by
  rw [messageTable, List.map_map]
  exact List.map_id _

theorem messageTable_ordered (attempts : List Attempt) :
    (messageTable (failures attempts)).Pairwise fun x y =>
      attempts.findIdx (·.FailsWith x.1) < attempts.findIdx (·.FailsWith y.1) := by
  have hfirst (m : String) : firstIndex Attempt.failure? attempts m = attempts.findIdx (·.FailsWith m) := by
    unfold firstIndex
    congr 1
    funext a
    exact decide_eq_decide.mpr a.failsWith_iff.symm
  rw [messageTable, List.pairwise_map]
  apply (eraseDups_filterMap_ordered Attempt.failure? attempts).imp
  intro m other h
  rwa [hfirst, hfirst] at h

theorem rankErrors_outranks (attempts : List Attempt) : (rankErrors attempts).Pairwise (Outranks attempts) := by
  rw [rankErrors_eq]
  apply (pairwise_mergeSort_of_pairwise (r := fun a b : String × Nat => b.2 ≤ a.2)
    (fun _ _ _ hab hbc => Nat.le_trans hbc hab) (fun _ _ => Nat.le_total _ _) (messageTable_ordered attempts)).imp
  rintro x y ⟨hle, hfirst⟩
  rcases Nat.lt_or_eq_of_le hle with hlt | he
  · exact .inl hlt
  · exact .inr ⟨he.symm, hfirst (Nat.le_of_eq he.symm)⟩

theorem rankErrors_ranking (attempts : List Attempt) : Ranking attempts (rankErrors attempts) := by
  have hperm := rankErrors_perm attempts
  have hmessages : ((rankErrors attempts).map Prod.fst).Perm (failures attempts).eraseDups :=
    map_fst_messageTable (failures attempts) ▸ hperm.map Prod.fst
  refine ⟨?_, ?_, ?_, ?_⟩
  · intro m
    rw [hmessages.mem_iff, List.mem_eraseDups, mem_failures]
  · exact hmessages.nodup_iff.mpr (nodup_eraseDups _)
  · intro m n h
    obtain ⟨other, -, he⟩ := List.mem_map.mp (hperm.mem_iff.mp h)
    cases he
    exact count_failures _
  · intro i j x y
    exact lt_iff_of_pairwise Outranks.asymm (rankErrors_outranks attempts)

theorem Ranking.mem_iff {table : List (String × Nat)} (h : Ranking attempts table) (x : String × Nat) :
    x ∈ table ↔ (∃ a ∈ attempts, a.FailsWith x.1) ∧ x.2 = attempts.countP (·.FailsWith x.1) := by
  constructor
  · intro hx
    exact ⟨(h.listed x.1).mp (List.mem_map_of_mem hx), h.counts x.1 x.2 hx⟩
  · rintro ⟨ha, hn⟩
    obtain ⟨y, hy, hm⟩ := List.mem_map.mp ((h.listed x.1).mpr ha)
    have hcount : y.2 = x.2 := by rw [h.counts y.1 y.2 hy, hm, hn]
    rwa [← Prod.ext hm hcount]

theorem Ranking.unique {table other : List (String × Nat)} (h : Ranking attempts table) (h' : Ranking attempts other) :
    table = other := by
  have hordered {t : List (String × Nat)} (ht : Ranking attempts t) : t.Pairwise (Outranks attempts) := by
    rw [List.pairwise_iff_getElem]
    intro i j hi hj hij
    exact (ht.ordered i j _ _ (List.getElem?_eq_getElem hi) (List.getElem?_eq_getElem hj)).mp hij
  have hperm : table.Perm other := by
    apply (List.perm_ext_iff_of_nodup (.of_map _ h.once) (.of_map _ h'.once)).mpr
    intro x
    rw [h.mem_iff, h'.mem_iff]
  apply hperm.eq_of_pairwise _ (hordered h) (hordered h')
  intro x y _ _ hxy hyx
  exact absurd hyx (Outranks.asymm x y hxy)

end Summary

/-- The failures of a summary are ranked, and in one way only. -/
theorem errors_eq_iff_ranking (attempts : List Attempt) (elapsed : Duration) (warmup : Option Warmup)
    (table : List (String × Nat)) :
    (Summary.ofAttempts attempts elapsed warmup).errors = table ↔ Summary.Ranking attempts table := by
  have hranking := Summary.rankErrors_ranking attempts
  constructor
  · rintro rfl
    exact hranking
  · exact hranking.unique

/-- A failure without a message is counted with one whose message is its status. -/
example :
    let failed (message : String) : Attempt := ⟨.cancel, 503, .zero, .failure message⟩
    Summary.rankErrors [failed "b", failed "", failed "a", failed "a", failed "HTTP 503"] =
      [("HTTP 503", 2), ("a", 2), ("b", 1)] := by
  intro failed
  rw [Summary.rankErrors_eq]
  cbv

end OrderBench
