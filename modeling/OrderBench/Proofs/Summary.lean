import OrderBench.Proofs.CancelRun
import OrderBench.Proofs.ErrorTable
import OrderBench.Proofs.Latency
import OrderBench.Proofs.Limits

/-!
A summary loses no attempt and makes none up: its counts, its table of failures, its kinds and its latencies each
account for all attempts of a run.
-/
namespace OrderBench

namespace Summary

/-- The attempts of a kind. -/
def ofKind (attempts : List Attempt) (kind : RequestKind) : List Attempt := attempts.filter (·.kind = kind)

theorem ofKind_ne_nil {attempts : List Attempt} {kind : RequestKind} :
    ofKind attempts kind ≠ [] ↔ kind ∈ attempts.map Attempt.kind := by
  simp [ofKind]

/-- Each attempt is of one of the two kinds. -/
theorem countP_kinds (attempts : List Attempt) (p : Attempt → Bool) :
    (ofKind attempts .place).countP p + (ofKind attempts .cancel).countP p = attempts.countP p := by
  induction attempts with
  | nil => rfl
  | cons a attempts ih =>
      rw [ofKind, ofKind] at ih ⊢
      cases h : a.kind <;> simp [h, List.countP_cons] <;> omega

/-- What is counted of a kind, nothing where it does not occur. -/
def kindCount? (attempts : List Attempt) (kind : RequestKind) : Option KindCount :=
  if ofKind attempts kind = [] then none
  else some ⟨kind, (ofKind attempts kind).length, (ofKind attempts kind).countP Attempt.succeeded⟩

theorem countKinds_eq (attempts : List Attempt) :
    countKinds attempts = [RequestKind.place, .cancel].filterMap (kindCount? attempts) := by
  simp only [countKinds, List.isEmpty_iff]
  rfl

theorem kindCount?_some {attempts : List Attempt} {kind : RequestKind} {k : KindCount}
    (h : kindCount? attempts kind = some k) : k.kind = kind ∧ k.total = (ofKind attempts kind).length ∧
      k.success = (ofKind attempts kind).countP Attempt.succeeded := by
  unfold kindCount? at h
  split at h
  · cases h
  · cases h
    exact ⟨rfl, rfl, rfl⟩

theorem kinds_countKinds (attempts : List Attempt) :
    (countKinds attempts).map KindCount.kind =
      [RequestKind.place, .cancel].filter fun kind => kind ∈ attempts.map Attempt.kind := by
  rw [countKinds_eq, List.map_filterMap, ← List.filterMap_eq_filter]
  refine List.filterMap_congr fun kind _ => ?_
  by_cases h : ofKind attempts kind = []
  · have hnot := ofKind_ne_nil.not.mp (not_not.mpr h)
    simp [kindCount?, h, Option.guard, hnot]
  · simp [kindCount?, h, Option.guard, ofKind_ne_nil.mp h]

/-- A figure of each kind, nothing where there is none of it, adds up over the table. -/
theorem sum_countKinds (attempts : List Attempt) (figure : KindCount → Nat) (count : RequestKind → Nat)
    (hsome : ∀ kind k, kindCount? attempts kind = some k → figure k = count kind)
    (hnone : ∀ kind, ofKind attempts kind = [] → count kind = 0) :
    ((countKinds attempts).map figure).sum = count .place + count .cancel := by
  have hkind (kind : RequestKind) : ((kindCount? attempts kind).toList.map figure).sum = count kind := by
    cases h : kindCount? attempts kind with
    | none =>
        have hnil : ofKind attempts kind = [] := by
          by_contra hne
          simp [kindCount?, hne] at h
        exact (hnone kind hnil).symm
    | some k => simpa using hsome kind k h
  rw [countKinds_eq, ← hkind .place, ← hkind .cancel]
  cases hp : kindCount? attempts .place <;> cases hc : kindCount? attempts .cancel <;> simp [hp, hc]

/-- The summary accounts for the attempts: none is lost, counted twice or made up. -/
structure Accounts (s : Summary) (attempts : List Attempt) : Prop where
  total : s.total = attempts.length
  success : s.success = attempts.countP Attempt.succeeded
  outcomes : s.success + s.fail = s.total
  errors : counted s.errors = s.fail
  noErrors : s.errors = [] ↔ ∀ a ∈ attempts, a.succeeded = true
  /-- The kinds that occur, placements before cancels, each once. -/
  kinds : s.byKind.map KindCount.kind =
    [RequestKind.place, .cancel].filter fun kind => kind ∈ attempts.map Attempt.kind
  byKind : ∀ k ∈ s.byKind, k.total = attempts.countP (·.kind = k.kind) ∧
    k.success = attempts.countP (fun a => a.succeeded && a.kind = k.kind) ∧ k.success ≤ k.total
  kindTotals : (s.byKind.map KindCount.total).sum = s.total
  kindSuccesses : (s.byKind.map KindCount.success).sum = s.success
  /-- The latencies are those of the successes, in whatever order. -/
  latency : ∀ times : List Binary64, times.Perm ((attempts.filter Attempt.succeeded).map Attempt.time) →
    times.length = s.success ∧ s.latency = .ofSamples times

theorem accounts (attempts : List Attempt) (elapsed : Duration) (warmup : Option Warmup) :
    (ofAttempts attempts elapsed warmup).Accounts attempts where
  total := rfl
  success := List.countP_eq_length_filter.symm
  outcomes := Nat.add_sub_cancel' (List.length_filter_le _ _)
  errors := by
    have hlen := length_failures attempts
    change counted (rankErrors attempts) = attempts.length - (attempts.filter Attempt.succeeded).length
    rw [counted_rankErrors]
    omega
  noErrors := by
    have hperm := rankErrors_perm attempts
    have hnil : messageTable (failures attempts) = [] ↔ failures attempts = [] := by
      cases failures attempts <;> simp [messageTable, List.eraseDups_cons]
    rw [← failures_eq_nil, ← hnil]
    exact ⟨fun h : rankErrors attempts = [] => (h ▸ hperm).nil_eq.symm, fun h => (h ▸ hperm).eq_nil⟩
  kinds := kinds_countKinds attempts
  byKind := by
    intro k hk
    rw [show (ofAttempts attempts elapsed warmup).byKind = countKinds attempts from rfl, countKinds_eq,
      List.mem_filterMap] at hk
    obtain ⟨kind, -, hk⟩ := hk
    obtain ⟨rfl, htotal, hsuccess⟩ := kindCount?_some hk
    refine ⟨?_, ?_, ?_⟩
    · rw [htotal, ofKind, List.countP_eq_length_filter]
    · rw [hsuccess, ofKind, List.countP_filter]
    · rw [htotal, hsuccess]
      exact List.countP_le_length
  kindTotals := by
    have h := sum_countKinds attempts KindCount.total (fun kind => (ofKind attempts kind).length)
      (fun kind k hk => (kindCount?_some hk).2.1) (fun kind hk => by rw [hk, List.length_nil])
    have hkinds := countP_kinds attempts fun _ => true
    simp only [List.countP_true] at hkinds
    exact h.trans hkinds
  kindSuccesses := by
    have h := sum_countKinds attempts KindCount.success
      (fun kind => (ofKind attempts kind).countP Attempt.succeeded) (fun kind k hk => (kindCount?_some hk).2.2)
      (fun kind hk => by rw [hk, List.countP_nil])
    rw [countP_kinds, List.countP_eq_length_filter] at h
    exact h
  latency := by
    intro times h
    exact ⟨h.length_eq.trans (List.length_map _), (Latency.ofSamples_eq_of_perm h).symm⟩

end Summary

/-- The summary has as many attempts as were asked for, or for cancels as the warm-up created. -/
def RunRecord.Complete (r : RunRecord) (total : Nat) : Prop :=
  match r.workload with
  | .place | .both => (Summary.ofRun r).total = total
  | .cancel => ∃ w, (Summary.ofRun r).warmup = some w ∧ (Summary.ofRun r).total = w.created

theorem Driver.Leaves.complete {workload : Workload} {total permits : Nat} {desk : Desk} {r : RunRecord}
    (h : Leaves workload total desk permits r) : r.Complete total := by
  cases h with
  | direct elapsed hw hr he =>
      have hlen := Phase.run_length_results hr he
      obtain rfl := Workload.eq_place_of_warmupCount hw
      exact hlen
  | warmed r elapsed =>
      have hlen := Phase.run_length_results r.measured_run r.measured_ended
      cases workload with
      | place => exact hlen
      | cancel => exact ⟨r.warmup, rfl, r.cancelAccount.results⟩
      | both => exact hlen

/-- The summary of a run, its calls answered in any way and in any order, accounts for its attempts, which are as
many as they should be; on the clock every run that can begin comes to such a summary. -/
theorem summary_accounts :
    (∀ (attempts : List Attempt) (elapsed : Duration) (warmup : Option Warmup),
      (Summary.ofAttempts attempts elapsed warmup).Accounts attempts) ∧
    (∀ (workload : Workload) (total permits : Nat) (desk : Desk) (r : RunRecord),
      Driver.Leaves workload total desk permits r → (Summary.ofRun r).Accounts r.attempts ∧ r.Complete total) ∧
    ∀ (s : Session) (workload : Workload) (total : Nat) (count : Option Nat), 0 < s.permits →
      workload.warmupCount total = .ok count → ∃ r t, s.run workload total = .ok (r, t) ∧ r.workload = workload ∧
        (Summary.ofRun r).Accounts r.attempts ∧ r.Complete total := by
  refine ⟨Summary.accounts, fun _ _ _ _ r h => ⟨Summary.accounts _ _ _, h.complete⟩, ?_⟩
  intro s workload total count hpos hw
  obtain ⟨r, t, hr⟩ := s.run_ok hpos hw
  have hl := Session.run_leaves hpos hr
  have hworkload : r.workload = workload := by cases hl <;> rfl
  exact ⟨r, t, hr, hworkload, Summary.accounts _ _ _, hl.complete⟩

/-- A hundred and fifty cancels, on a service that gives every third placement an id, refuses the next one and does
not answer the last. -/
theorem summary_accounts_of_cancels :
    let s : Session := {
      venue := fun number _ => ⟨number % 4, match number % 3 with
        | 0 => .ok ⟨200, s!"\x7b\"data\":\x7b\"orderId\":{number}\x7d\x7d"⟩
        | 1 => .ok ⟨503, ""⟩
        | _ => .error (.timeout ⟨10, 0⟩)⟩
      permits := 3
      desk := { symbol := "BTCUSDT", draws := .cyclic #[] } }
    ∃ r t w, s.run .cancel 150 = .ok (r, t) ∧ (Summary.ofRun r).Accounts r.attempts ∧
      (Summary.ofRun r).warmup = some w ∧ (Summary.ofRun r).total = w.created := by
  intro s
  obtain ⟨-, hleaves, hrun⟩ := summary_accounts
  obtain ⟨r, t, hr, hworkload, haccounts, -⟩ := hrun s .cancel 150 (some 100) (by decide) rfl
  obtain ⟨-, hcomplete⟩ := hleaves .cancel 150 s.permits s.desk r (Session.run_leaves (by decide) hr)
  simp only [RunRecord.Complete, hworkload] at hcomplete
  obtain ⟨w, hw, htotal⟩ := hcomplete
  exact ⟨r, t, w, hr, haccounts, hw, htotal⟩

end OrderBench
