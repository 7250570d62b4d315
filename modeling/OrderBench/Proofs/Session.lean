import OrderBench.Driver
import OrderBench.Proofs.Load

/-!
A session is one course of a driver: each of its phases runs to its end, with answers of its service, and
each of its runs is a history from one idle state to the next, with the permits that it began with.
-/
namespace OrderBench

open Phase (Move begun)

namespace Driver

theorem History.trans {d e f : Driver} {ms ns : List Move} (h : History d ms e) (hn : History e ns f) :
    History d (ms ++ ns) f := by
  induction hn with
  | nil => rwa [List.append_nil]
  | snoc _ hs ih => rw [← List.append_assoc]; exact .snoc ih hs

theorem History.silent {d e f : Driver} {ms : List Move} (h : History d ms e) (hs : Step e none f) :
    History d ms f := by
  have := History.snoc h hs
  rwa [Option.toList_none, List.append_nil] at this

theorem warming_history {workload : Workload} {total : Nat} {p q : Phase} {ms : List Move} (h : Phase.Run p ms q) :
    History (.warming workload total p) ms (.warming workload total q) := by
  induction h with
  | nil => exact .nil
  | snoc _ hs ih => exact .snoc ih (.warming hs)

theorem measuring_history {workload : Workload} {p q : Phase} {ms : List Move} (h : Phase.Run p ms q) :
    History (.measuring workload p) ms (.measuring workload q) := by
  induction h with
  | nil => exact .nil
  | snoc _ hs ih => exact .snoc ih (.measuring hs)

end Driver

open Driver in
theorem WarmRun.history {workload : Workload} {total : Nat} {desk : Desk} {permits : Nat}
    (r : WarmRun workload total desk permits) (elapsed : Duration) :
    History (.idle desk permits) (r.warmUpMoves ++ r.measuredMoves)
      (.idle (r.measured.desk.note (.finished workload r.measured.results.length elapsed)) r.measured.free) := by
  have hw : History (.idle desk permits) r.warmUpMoves (.warming workload total r.warmUp) :=
    (History.nil.silent (.warmUp r.warmupCount_eq)).trans (warming_history r.warmUp_run)
  exact ((hw.silent (.warm r.warmUp_ended)).trans (measuring_history r.measured_run)).silent
    (.finish r.measured_ended)

theorem Phase.ended_free {desk : Desk} {task : Task} {total permits : Nat} {ms : List Move} {p : Phase}
    (h : Run (opening desk task total permits) ms p) (he : p.Ended) : p.free = permits := by
  have := run_permits h (opening_sound desk task total permits)
  rw [he.2] at this
  simpa [opening] using this

theorem WarmRun.measured_free {workload : Workload} {total : Nat} {desk : Desk} {permits : Nat}
    (r : WarmRun workload total desk permits) : r.measured.free = permits := by
  rw [Phase.ended_free r.measured_run r.measured_ended, Phase.ended_free r.warmUp_run r.warmUp_ended]

namespace Workload

theorem warmupCount_both_eq (total : Nat) : Workload.both.warmupCount total =
    if total + total / 2 ≤ maxCount then .ok (some (total + total / 2)) else .error .addOverflow := by
  rw [warmupCount, addCounts]
  split <;> rfl

theorem eq_place_of_warmupCount {workload : Workload} {total : Nat} (h : workload.warmupCount total = .ok none) :
    workload = .place := by
  cases workload with
  | place => rfl
  | cancel => cases h
  | both =>
      rw [warmupCount_both_eq] at h
      split at h <;> cases h

theorem measuredCount_le (workload : Workload) (total : Nat) (warmup : Option Warmup) :
    workload.measuredCount total warmup ≤ total := by
  cases workload with
  | place | both => exact Nat.le_refl total
  | cancel => exact Nat.min_le_left _ _

/-- The measured phase of a run has no more tasks than its warm-up. -/
theorem measuredCount_le_count {workload : Workload} {total count : Nat} {w : Warmup}
    (hw : workload.warmupCount total = .ok (some count)) (h : w.created ≤ count) :
    workload.measuredCount total (some w) ≤ count := by
  cases workload with
  | place => cases hw
  | cancel => exact Nat.le_trans (Nat.min_le_right _ _) h
  | both =>
      rw [warmupCount_both_eq] at hw
      split at hw
      · cases hw
        exact Nat.le_add_right total (total / 2)
      · cases hw

end Workload

theorem WarmRun.requested_eq {workload : Workload} {total : Nat} {desk : Desk} {permits : Nat}
    (r : WarmRun workload total desk permits) : r.warmup.requested = r.count := Phase.run_total r.warmUp_run

namespace Session

variable (s : Session)

/-- The answers of a phase are those that the service gives after so many calls of each kind. -/
def Answers (venue : Venue) (tally : Tally) (ms : List Move) : Prop :=
  ∀ (i : Nat) (call : Call) (answer : Answer), Move.finish i call answer ∈ ms →
    (tally.replies venue (begun ms))[i]? = some (some answer)

/-- The moves of a phase on the clock, and the time that they take. -/
structure Timed (venue : Venue) (permits : Nat) (tally : Tally) (ms : List Move) (time : Nat) : Prop where
  answers : Answers venue tally ms
  conserving : WorkConserving permits (tally.latencies venue (begun ms)) time

theorem runPhase_timed (task : Task) (total : Nat) (hpos : 0 < s.permits) :
    ∃ ms p time peak, Phase.Run (.opening s.desk task total s.permits) ms p ∧ p.Ended ∧
      Timed s.venue s.permits s.tally ms time ∧
      s.runPhase task total = (p.results,
        { s with permits := p.free, desk := p.desk, tally := s.tally.after (begun ms), now := s.now + time, peak }) := by
  obtain ⟨ms, hf, he, hle, hw⟩ := Timeline.run_workConserving s.venue (s.timeline task total) rfl rfl hpos
  let t := (s.timeline task total).run s.venue
  refine ⟨ms, t.phase, t.now - s.now, t.peak, hf.run, he, ⟨hf.answered, hw⟩, ?_⟩
  have hnow : s.now + (t.now - s.now) = t.now := Nat.add_sub_of_le hle
  rw [runPhase, hf.tally, hnow]
  rfl

theorem runPhase_eq (task : Task) (total : Nat) (hpos : 0 < s.permits) :
    ∃ ms p now peak, Phase.Run (.opening s.desk task total s.permits) ms p ∧ p.Ended ∧
      Answers s.venue s.tally ms ∧
      s.runPhase task total = (p.results,
        { s with permits := p.free, desk := p.desk, tally := s.tally.after (begun ms), now, peak }) := by
  obtain ⟨ms, p, time, peak, hr, he, ht, hp⟩ := s.runPhase_timed task total hpos
  exact ⟨ms, p, _, peak, hr, he, ht.answers, hp⟩

theorem warmUp_timed (count : Nat) (hpos : 0 < s.permits) :
    ∃ ms p time peak, Phase.Run (Driver.warmUp s.desk s.permits count) ms p ∧ p.Ended ∧
      Timed s.venue s.permits s.tally ms time ∧
      s.warmUp count = (Driver.summary p (.ofNanos time),
        { s with
          desk := p.desk.note (.warmedUp (Driver.summary p (.ofNanos time)).created)
          tally := s.tally.after (begun ms)
          now := s.now + time
          peak }) := by
  obtain ⟨ms, p, time, peak, hr, he, ht, hp⟩ := (s.note (.warmingUp count)).runPhase_timed .place count hpos
  refine ⟨ms, p, time, peak, hr, he, ht, ?_⟩
  have hfree : p.free = s.permits := Phase.ended_free hr he
  have htime : (s.note (.warmingUp count)).now + time - s.now = time := Nat.add_sub_cancel_left ..
  obtain rfl : p.total = count := Phase.run_total hr
  have hwarm : s.warmUp p.total = match (s.note (.warmingUp p.total)).runPhase .place p.total with
    | (attempts, t) => (⟨p.total, attempts.countP Attempt.succeeded, .ofNanos (t.now - s.now)⟩,
      t.note (.warmedUp (attempts.countP Attempt.succeeded))) := rfl
  rw [hwarm, hp]
  simp only [htime, hfree]
  rfl

theorem run_eq_ok_iff {s t : Session} {workload : Workload} {total : Nat} {r : RunRecord} :
    s.run workload total = .ok (r, t) ↔ s.perform workload total = (.ok r, t) := by
  rcases hp : s.perform workload total with ⟨fault | record, u⟩ <;> simp [run, hp]

theorem perform_error {workload : Workload} {total : Nat} {fault : Fault}
    (hw : workload.warmupCount total = .error fault) : s.perform workload total = (.error fault, s) := by
  simp only [perform, Stage.run, hw]
  rfl

theorem run_error {workload : Workload} {total : Nat} {fault : Fault}
    (hw : workload.warmupCount total = .error fault) : s.run workload total = .error fault := by
  rw [run, s.perform_error hw]

theorem perform_none {workload : Workload} {total : Nat} (hw : workload.warmupCount total = .ok none) :
    s.perform workload total =
      match s.runPhase workload.task (workload.measuredCount total none) with
      | (attempts, t) => (.ok ⟨workload, attempts, .ofNanos (t.now - s.now), none⟩,
        t.note (.finished workload attempts.length (.ofNanos (t.now - s.now)))) := by
  simp only [perform, Stage.run, hw]
  rfl

theorem perform_some {workload : Workload} {total count : Nat} (hw : workload.warmupCount total = .ok (some count)) :
    s.perform workload total =
      match (s.warmUp count).2.runPhase workload.task (workload.measuredCount total (some (s.warmUp count).1)) with
      | (attempts, t) => (.ok ⟨workload, attempts, .ofNanos (t.now - s.now), some (s.warmUp count).1⟩,
        t.note (.finished workload attempts.length (.ofNanos (t.now - s.now)))) := by
  simp only [perform, Stage.run, hw]
  rfl

theorem run_direct {workload : Workload} {total : Nat} (hw : workload.warmupCount total = .ok none)
    (hpos : 0 < s.permits) :
    ∃ ms p now peak elapsed, Phase.Run (Driver.measured workload total none s.desk s.permits) ms p ∧ p.Ended ∧
      Answers s.venue s.tally ms ∧
      s.run workload total = .ok (⟨workload, p.results, elapsed, none⟩,
        { s with
          permits := p.free
          desk := p.desk.note (.finished workload p.results.length elapsed)
          tally := s.tally.after (begun ms)
          now
          peak }) := by
  obtain ⟨ms, p, now, peak, hr, he, ha, hp⟩ := s.runPhase_eq workload.task (workload.measuredCount total none) hpos
  refine ⟨ms, p, now, peak, .ofNanos (now - s.now), hr, he, ha, ?_⟩
  rw [run_eq_ok_iff, s.perform_none hw, hp]
  rfl

/-- A run with a warm-up, in the course that the clock and the service give. -/
theorem run_warm {workload : Workload} {total count : Nat} (hw : workload.warmupCount total = .ok (some count))
    (hpos : 0 < s.permits) :
    ∃ (r : WarmRun workload total s.desk s.permits) (now peak : Nat) (elapsed : Duration),
      Answers s.venue s.tally r.warmUpMoves ∧
      Answers s.venue (s.tally.after (begun r.warmUpMoves)) r.measuredMoves ∧
      s.run workload total = .ok (⟨workload, r.measured.results, elapsed, some r.warmup⟩,
        { s with
          permits := r.measured.free
          desk := r.measured.desk.note (.finished workload r.measured.results.length elapsed)
          tally := (s.tally.after (begun r.warmUpMoves)).after (begun r.measuredMoves)
          now
          peak }) := by
  obtain ⟨ws, p, time, peak, hr, he, ht, hwarm⟩ := s.warmUp_timed count hpos
  have hfree : p.free = s.permits := Phase.ended_free hr he
  let w := Driver.summary p (.ofNanos time)
  let t : Session :=
    { s with
      desk := p.desk.note (.warmedUp w.created)
      tally := s.tally.after (begun ws)
      now := s.now + time
      peak }
  obtain ⟨ms, q, now, peak', hr', he', ha, hq⟩ := t.runPhase_eq workload.task (workload.measuredCount total (some w)) hpos
  have hrun : Phase.Run (Driver.measured workload total (some w) t.desk p.free) ms q := hfree ▸ hr'
  refine ⟨⟨count, .ofNanos time, ws, p, ms, q, hw, hr, he, hrun, he'⟩, now, peak', .ofNanos (now - s.now),
    ht.answers, ha, ?_⟩
  rw [run_eq_ok_iff, s.perform_some hw, hwarm]
  dsimp only
  rw [hq]
  rfl

/-- Whatever it runs, a session that comes to an end has gone one course of a driver, and has its
permits back. -/
theorem run_history {workload : Workload} {total : Nat} {r : RunRecord} {t : Session} (hpos : 0 < s.permits)
    (h : s.run workload total = .ok (r, t)) :
    (∃ ms, Driver.History (.idle s.desk s.permits) ms (.idle t.desk t.permits)) ∧ t.permits = s.permits := by
  cases hw : workload.warmupCount total with
  | error fault => simp [s.run_error hw] at h
  | ok count =>
      cases count with
      | none =>
          obtain ⟨ms, p, now, peak, elapsed, hr, he, -, hrun⟩ := s.run_direct hw hpos
          obtain ⟨rfl, rfl⟩ := Prod.mk.inj (Except.ok.inj (h.symm.trans hrun))
          have hh := (Driver.History.nil.silent (.begin hw)).trans (Driver.measuring_history hr)
          exact ⟨⟨_, hh.silent (.finish he)⟩, Phase.ended_free hr he⟩
      | some count =>
          obtain ⟨w, now, peak, elapsed, -, -, hrun⟩ := s.run_warm hw hpos
          obtain ⟨rfl, rfl⟩ := Prod.mk.inj (Except.ok.inj (h.symm.trans hrun))
          exact ⟨⟨_, w.history elapsed⟩, w.measured_free⟩

/-- A run comes to an end unless the count of its warm-up overflows. -/
theorem run_ok {workload : Workload} {total : Nat} {count : Option Nat} (hpos : 0 < s.permits)
    (h : workload.warmupCount total = .ok count) : ∃ r t, s.run workload total = .ok (r, t) := by
  cases count with
  | none =>
      obtain ⟨ms, p, now, peak, elapsed, -, -, -, hrun⟩ := s.run_direct h hpos
      exact ⟨_, _, hrun⟩
  | some count =>
      obtain ⟨r, now, peak, elapsed, -, -, hrun⟩ := s.run_warm h hpos
      exact ⟨_, _, hrun⟩

/-- Runs one after the other, of workloads with their totals. -/
def runAll (runs : List (Workload × Nat)) (s : Session) : Except Fault Session :=
  match runs with
  | [] => .ok s
  | (workload, total) :: runs => do
    let (_, t) ← s.run workload total
    runAll runs t

theorem runAll_cons {run : Workload × Nat} {runs : List (Workload × Nat)} {s t : Session} :
    s.runAll (run :: runs) = .ok t ↔ ∃ r u, s.run run.1 run.2 = .ok (r, u) ∧ u.runAll runs = .ok t := by
  rcases hr : s.run run.1 run.2 with fault | ⟨r, u⟩ <;> simp [runAll, hr, bind, Except.bind]

theorem runAll_history {runs : List (Workload × Nat)} {s t : Session} (hpos : 0 < s.permits)
    (h : s.runAll runs = .ok t) :
    (∃ ms, Driver.History (.idle s.desk s.permits) ms (.idle t.desk t.permits)) ∧ t.permits = s.permits := by
  induction runs generalizing s with
  | nil =>
      cases h
      exact ⟨⟨[], .nil⟩, rfl⟩
  | cons run runs ih =>
      obtain ⟨r, u, hr, hrest⟩ := runAll_cons.mp h
      obtain ⟨⟨ms, hm⟩, hp⟩ := s.run_history hpos hr
      obtain ⟨⟨ns, hn⟩, hq⟩ := ih (hp ▸ hpos) hrest
      exact ⟨⟨_, hm.trans hn⟩, hq.trans hp⟩

theorem runAll_ok {runs : List (Workload × Nat)} (hpos : 0 < s.permits)
    (h : ∀ run ∈ runs, ∃ count, run.1.warmupCount run.2 = .ok count) : ∃ t, s.runAll runs = .ok t := by
  induction runs generalizing s with
  | nil => exact ⟨s, rfl⟩
  | cons run runs ih =>
      obtain ⟨count, hc⟩ := h run (List.mem_cons_self ..)
      obtain ⟨r, t, hr⟩ := s.run_ok hpos hc
      have hp := (s.run_history hpos hr).2
      obtain ⟨u, hu⟩ := ih t (hp ▸ hpos) fun other ho => h other (List.mem_cons_of_mem _ ho)
      exact ⟨u, runAll_cons.mpr ⟨r, t, hr, hu⟩⟩

end Session

end OrderBench
