import OrderBench.Proofs.Placement
import OrderBench.Proofs.Session

/-!
The time of a run. In each of its phases the permits do the work of the calls without a pause, and the run takes as
long as its phases, one after the other.
-/
namespace OrderBench

open Phase (Move begun)

namespace Session

variable (s : Session)

structure PhaseElapses (task : Task) (total : Nat) (ms : List Move) (p : Phase) (time : Nat) : Prop where
  run : Phase.Run (.opening s.desk task total s.permits) ms p
  ended : p.Ended
  timed : Timed s.venue s.permits s.tally ms time
  results : (s.runPhase task total).1 = p.results
  now : (s.runPhase task total).2.now = s.now + time
  permits : (s.runPhase task total).2.permits = s.permits

theorem phaseElapses (task : Task) (total : Nat) (hpos : 0 < s.permits) :
    ∃ ms p time, s.PhaseElapses task total ms p time := by
  obtain ⟨ms, p, time, peak, hr, he, ht, hp⟩ := s.runPhase_timed task total hpos
  exact ⟨ms, p, time, hr, he, ht, by rw [hp], by rw [hp], by rw [hp]; exact Phase.ended_free hr he⟩

/-- A run without a warm-up takes as long as its one phase; the length of any other is that of its warm-up and of its
measured phase together. -/
structure Elapses (workload : Workload) (total : Nat) : Prop where
  direct : workload.warmupCount total = .ok none → ∃ ms p time record t,
    s.PhaseElapses workload.task (workload.measuredCount total none) ms p time ∧
    s.run workload total = .ok (record, t) ∧ record.attempts = p.results ∧ record.warmup = none ∧
    record.elapsed = .ofNanos time
  warm : ∀ count, workload.warmupCount total = .ok (some count) → ∃ w u ws p before ms q time record t,
    s.warmUp count = (w, u) ∧ u.permits = s.permits ∧
    (s.note (.warmingUp count)).PhaseElapses .place count ws p before ∧
    u.PhaseElapses workload.task (workload.measuredCount total (some w)) ms q time ∧
    s.run workload total = .ok (record, t) ∧ record.attempts = q.results ∧ record.warmup = some w ∧
    w.elapsed = .ofNanos before ∧ record.elapsed = .ofNanos (before + time) ∧
    record.elapsed = w.elapsed + .ofNanos time

theorem warmUp_elapses (count : Nat) (hpos : 0 < s.permits) : ∃ w u ws p before,
    s.warmUp count = (w, u) ∧ u.permits = s.permits ∧
    (s.note (.warmingUp count)).PhaseElapses .place count ws p before ∧
    w.elapsed = .ofNanos before ∧ u.now = s.now + before := by
  obtain ⟨ws, p, before, h⟩ := (s.note (.warmingUp count)).phaseElapses .place count hpos
  refine ⟨_, _, ws, p, before, rfl, h.permits, h, ?_, h.now⟩
  have hnow : ((s.note (.warmingUp count)).runPhase .place count).2.now - s.now = before := by
    rw [h.now]
    exact Nat.add_sub_cancel_left ..
  exact congrArg Duration.ofNanos hnow

theorem elapses (workload : Workload) (total : Nat) (hpos : 0 < s.permits) : s.Elapses workload total where
  direct hw := by
    obtain ⟨ms, p, time, h⟩ := s.phaseElapses workload.task (workload.measuredCount total none) hpos
    obtain ⟨t, hrun⟩ : ∃ t, s.run workload total = .ok (⟨workload, p.results, .ofNanos time, none⟩, t) := by
      simp only [run_eq_ok_iff, s.perform_none hw, h.results, h.now, Nat.add_sub_cancel_left]
      exact ⟨_, rfl⟩
    exact ⟨ms, p, time, _, t, h, hrun, rfl, rfl, rfl⟩
  warm count hw := by
    obtain ⟨w, u, ws, p, before, hu, hpermits, hp, hw', hnow⟩ := s.warmUp_elapses count hpos
    obtain ⟨ms, q, time, hq⟩ := u.phaseElapses workload.task (workload.measuredCount total (some w)) (hpermits ▸ hpos)
    obtain ⟨t, hrun⟩ : ∃ t, s.run workload total = .ok (⟨workload, q.results, .ofNanos (before + time), some w⟩, t) := by
      simp only [run_eq_ok_iff, s.perform_some hw, hu, hq.results, hq.now, hnow, Nat.add_assoc,
        Nat.add_sub_cancel_left]
      exact ⟨_, rfl⟩
    have hsum : Duration.ofNanos (before + time) = w.elapsed + .ofNanos time := by rw [hw', Duration.ofNanos_add]
    exact ⟨w, u, ws, p, before, ms, q, time, _, t, hu, hpermits, hp, hq, hrun, rfl, rfl, hw', rfl, hsum⟩

end Session

/-- On its clock a session conserves work in every phase, whatever its service takes for the calls, and a run takes as
long as its warm-up and its measured phase. -/
theorem run_time_conserves_work (s : Session) (hpos : 0 < s.permits) :
    (∀ (task : Task) (total : Nat), ∃ ms p time, s.PhaseElapses task total ms p time) ∧
    ∀ (workload : Workload) (total : Nat), s.Elapses workload total :=
  ⟨fun task total => s.phaseElapses task total hpos, fun workload total => s.elapses workload total hpos⟩

/-- One permit, and placements of one, two and three nanoseconds: they take six. -/
theorem run_time_conserves_work_of_three_calls :
    let s : Session := {
      venue := fun number _ => ⟨number, .ok ⟨200, ""⟩⟩
      permits := 1
      desk := { symbol := "BTCUSDT", draws := .cyclic #[1] } }
    ∃ record t, s.run .place 3 = .ok (record, t) ∧ record.elapsed = .ofNanos 6 ∧ s.Elapses .both 2 := by
  intro s
  obtain ⟨-, hruns⟩ := run_time_conserves_work s (by decide)
  obtain ⟨ms, p, time, record, t, h, hrun, -, -, helapsed⟩ := (hruns .place 3).direct rfl
  have hplace : Phase.Run (.opening s.desk .place 3 s.permits) ms p := h.run
  have hbegun : begun ms = (s.desk.orders 3).map (some ∘ Call.place) := by
    rw [(Phase.run_placing hplace).begun, h.ended.1, Phase.run_total hplace]
  have hsum : (s.tally.latencies s.venue (begun ms)).sum = 6 := by
    rw [hbegun, Tally.latencies, Tally.replies_place]
    rfl
  have htime : time = 6 := (h.timed.conserving.serial rfl).trans hsum
  exact ⟨record, t, hrun, htime ▸ helapsed, hruns .both 2⟩

end OrderBench
