import OrderBench.Proofs.BaseUrl
import OrderBench.Proofs.Counts
import OrderBench.Proofs.MixedRun

/-!
What settings that were accepted can overflow. The only count that can leave its 64 bits is that of a warm-up
before mixed tasks, and it does so before anything else is done.
-/
namespace OrderBench

theorem Settings.accept_concurrency {s c : Settings} (h : s.accept = .ok c) :
    0 < c.concurrency ∧ c.concurrency ≤ maxPermits := by
  obtain ⟨-, hlimits, -⟩ := accept_eq_ok_iff.mp h
  exact hlimits

theorem Settings.poolSize_eq {c : Settings} (h : c.concurrency ≤ maxPermits) :
    c.poolSize = .ok (c.concurrency * 2) := by
  rw [poolSize, mulCounts, if_pos]
  unfold maxPermits at h
  unfold maxCount
  omega

/-- Half as much again of a total, odd or even, can be counted just up to here. -/
theorem overflow_iff (total : Nat) : maxCount < total + total / 2 ↔ 12297829382473034411 ≤ total := by
  unfold maxCount
  omega

namespace Workload

theorem warmupCount_error {workload : Workload} {total : Nat} {fault : Fault} :
    workload.warmupCount total = .error fault ↔
      fault = .addOverflow ∧ workload = .both ∧ maxCount < total + total / 2 := by
  cases workload with
  | place | cancel => simp [warmupCount]
  | both =>
      rw [warmupCount_both_eq]
      by_cases h : total + total / 2 ≤ maxCount
      · simp [h, Nat.not_lt_of_le h]
      · simp [h, Nat.lt_of_not_le h, eq_comm]

theorem warmupCount_le {workload : Workload} {total count : Nat} (ht : total ≤ maxCount)
    (h : workload.warmupCount total = .ok (some count)) : count ≤ maxCount := by
  cases workload with
  | place => cases h
  | cancel =>
      cases h
      exact (Nat.min_le_left _ _).trans ht
  | both =>
      rw [warmupCount_both_eq] at h
      split at h
      · next hb =>
        cases h
        exact hb
      · cases h

end Workload

/-! What a run counts. -/

/-- The records that a run can leave, its calls answered in any way and in any order. -/
inductive Driver.Leaves (workload : Workload) (total : Nat) (desk : Desk) (permits : Nat) : RunRecord → Prop
  | direct {ms : List Phase.Move} {p : Phase} (elapsed : Duration) (hw : workload.warmupCount total = .ok none)
      (hr : Phase.Run (measured workload total none desk permits) ms p) (he : p.Ended) :
      Leaves workload total desk permits ⟨workload, p.results, elapsed, none⟩
  | warmed (r : WarmRun workload total desk permits) (elapsed : Duration) :
      Leaves workload total desk permits ⟨workload, r.measured.results, elapsed, some r.warmup⟩

/-- The counts of a run, and those of its summary, fit 64 bits at each step. -/
structure RunRecord.Counted (r : RunRecord) : Prop where
  created : ∀ w ∈ r.warmup, w.created ≤ w.requested ∧ w.requested ≤ maxCount
  attempts : r.attempts.length ≤ maxCount
  summary : Summary.ofAttempts? r.attempts r.elapsed r.warmup = some (Summary.ofRun r)

namespace WarmRun

variable {workload : Workload} {total permits : Nat} {desk : Desk} (r : WarmRun workload total desk permits)

theorem length_warmUp : r.warmUp.results.length = r.warmup.requested := by
  rw [Phase.run_length_results r.warmUp_run r.warmUp_ended, r.requested_eq]

theorem created_le_requested : r.warmup.created ≤ r.warmup.requested := by
  rw [← r.length_warmUp]
  exact List.countP_le_length

theorem requested_le (ht : total ≤ maxCount) : r.warmup.requested ≤ maxCount := by
  rw [r.requested_eq]
  exact Workload.warmupCount_le ht r.warmupCount_eq

end WarmRun

theorem Driver.Leaves.counted {workload : Workload} {total permits : Nat} {desk : Desk} {r : RunRecord}
    (h : Leaves workload total desk permits r) (ht : total ≤ maxCount) : r.Counted := by
  cases h with
  | direct elapsed hw hr he =>
      have hlen := (Phase.run_length_results hr he).le.trans ((workload.measuredCount_le total none).trans ht)
      exact ⟨nofun, hlen, Summary.ofAttempts?_eq hlen _ _⟩
  | warmed r elapsed =>
      have hlen := (Phase.run_length_results r.measured_run r.measured_ended).le.trans
        ((workload.measuredCount_le total _).trans ht)
      refine ⟨?_, hlen, Summary.ofAttempts?_eq hlen _ _⟩
      rintro w ⟨⟩
      exact ⟨r.created_le_requested, r.requested_le ht⟩

namespace Session

variable {s t : Session} {workload : Workload} {total : Nat}

theorem run_leaves {r : RunRecord} (hpos : 0 < s.permits) (h : s.run workload total = .ok (r, t)) :
    Driver.Leaves workload total s.desk s.permits r := by
  rcases hw : workload.warmupCount total with fault | _ | count
  · simp [s.run_error hw] at h
  · obtain ⟨ms, p, now, peak, elapsed, hr, he, -, hrun⟩ := s.run_direct hw hpos
    obtain ⟨rfl, -⟩ := Prod.mk.inj (Except.ok.inj (h.symm.trans hrun))
    exact .direct elapsed hw hr he
  · obtain ⟨w, now, peak, elapsed, -, -, hrun⟩ := s.run_warm hw hpos
    obtain ⟨rfl, -⟩ := Prod.mk.inj (Except.ok.inj (h.symm.trans hrun))
    exact .warmed w elapsed

theorem run_eq_error_iff {fault : Fault} (hpos : 0 < s.permits) :
    s.run workload total = .error fault ↔ fault = .addOverflow ∧ workload = .both ∧ maxCount < total + total / 2 := by
  rw [← Workload.warmupCount_error]
  cases hw : workload.warmupCount total with
  | error other => simp only [s.run_error hw, Except.error.injEq]
  | ok count =>
      obtain ⟨r, u, hr⟩ := s.run_ok hpos hw
      simp [hr]

/-- A fault comes before anything else is done. -/
theorem perform_of_fault {fault : Fault} (hpos : 0 < s.permits) (h : s.run workload total = .error fault) :
    s.perform workload total = (.error fault, s) :=
  s.perform_error (Workload.warmupCount_error.mpr ((run_eq_error_iff hpos).mp h))

end Session

/-- On a driver with settings that were accepted, a run can fail in one way only: the count of its warm-up
overflows, and the session is left as it was. A run that does not fail counts without an overflow, and so does
its summary; the draws of its prices have none either. -/
theorem run_overflow_iff {raw settings : Settings} (h : raw.accept = .ok settings) :
    settings.poolSize = .ok (settings.concurrency * 2) ∧
    (∀ (venue : Venue) (desk : Desk), Session.opening venue settings.concurrency desk =
      .ok { venue, permits := settings.concurrency, desk }) ∧
    (∀ (symbol : String) (draw : Nat), alignPrice (.ofInt (rawPrice draw)) (tickSize symbol) =
      .ok (randomPrice (tickSize symbol) draw)) ∧
    ∀ (workload : Workload) (total : Nat), total ≤ maxCount →
      (maxCount < total + total / 2 ↔ 12297829382473034411 ≤ total) ∧
      (∀ s : Session, s.permits = settings.concurrency →
        ((∃ fault, s.run workload total = .error fault) ↔ workload = .both ∧ maxCount < total + total / 2) ∧
        (∀ fault, s.run workload total = .error fault →
          fault = .addOverflow ∧ s.perform workload total = (.error fault, s)) ∧
        ∀ r t, s.run workload total = .ok (r, t) →
          s.perform workload total = (.ok r, t) ∧ Driver.Leaves workload total s.desk s.permits r) ∧
      (∀ (desk : Desk) (permits : Nat) (r : RunRecord), Driver.Leaves workload total desk permits r → r.Counted) ∧
      ∀ (desk : Desk) (permits : Nat) (r : WarmRun workload total desk permits),
        count? Attempt.succeeded r.warmUp.results = some r.warmup.created := by
  obtain ⟨hpos, hle⟩ := Settings.accept_concurrency h
  refine ⟨Settings.poolSize_eq hle, fun _ _ => if_pos hle, alignPrice_rawPrice, ?_⟩
  intro workload total ht
  refine ⟨overflow_iff total, ?_, fun _ _ _ hr => hr.counted ht, ?_⟩
  · intro s hs
    have hp : 0 < s.permits := hs ▸ hpos
    refine ⟨?_, ?_, ?_⟩
    · simp [Session.run_eq_error_iff hp]
    · intro fault hf
      exact ⟨((Session.run_eq_error_iff hp).mp hf).1, Session.perform_of_fault hp hf⟩
    · intro r t hr
      exact ⟨Session.run_eq_ok_iff.mp hr, Session.run_leaves hp hr⟩
  · intro desk permits r
    have hlen : r.warmUp.results.length ≤ maxCount := by
      rw [r.length_warmUp]
      exact r.requested_le ht
    exact count?_eq _ hlen

/-- As many permits as a limiter may hold, and the totals on both sides of the boundary. -/
theorem run_overflow_iff_at_its_boundary :
    let raw : Settings := { url := "http://h/", concurrency := maxPermits }
    let settings : Settings := { url := "http://h", concurrency := maxPermits }
    let s : Session := {
      venue := fun number _ => ⟨number, .error (.timeout ⟨10, 0⟩)⟩
      permits := maxPermits
      desk := { symbol := "BTCUSDT", draws := .cyclic #[] } }
    raw.accept = .ok settings ∧ settings.poolSize = .ok 4611686018427387902 ∧
      s.run .both 12297829382473034411 = .error .addOverflow ∧
      s.perform .both 12297829382473034411 = (.error .addOverflow, s) ∧
      ∃ r t, s.run .both 12297829382473034410 = .ok (r, t) ∧ r.Counted := by
  intro raw settings s
  have haccept : raw.accept = .ok settings := by decide
  obtain ⟨hpool, -, -, hrun⟩ := run_overflow_iff haccept
  refine ⟨haccept, hpool.trans (congrArg _ (by decide)), ?_⟩
  rw [← and_assoc]
  constructor
  · obtain ⟨hb, hs, -, -⟩ := hrun .both 12297829382473034411 (by decide)
    obtain ⟨hiff, hfault, -⟩ := hs s rfl
    obtain ⟨fault, hf⟩ := hiff.mpr ⟨rfl, hb.mpr (Nat.le_refl _)⟩
    obtain ⟨rfl, hp⟩ := hfault fault hf
    exact ⟨hf, hp⟩
  · obtain ⟨hb, hs, hcounted, -⟩ := hrun .both 12297829382473034410 (by decide)
    obtain ⟨hiff, -, hleaves⟩ := hs s rfl
    cases hr : s.run .both 12297829382473034410 with
    | error fault => exact absurd (hb.mp (hiff.mp ⟨fault, hr⟩).2) (by decide)
    | ok p => exact ⟨p.1, p.2, rfl, hcounted _ _ _ (hleaves p.1 p.2 hr).2⟩

end OrderBench
