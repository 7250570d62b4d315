import OrderBench.Proofs.MixedRun
import OrderBench.Proofs.Permits

/-!
Progress. While a task of a phase is unfinished a move is possible, and each move leaves less to do: so every phase
ends, and then each of its tasks has started once, has ended once, and has its result at its own index.
-/
namespace OrderBench

open Phase (Move begun ended skipped)

namespace Phase

/-- At most so many moves are left: two for each task that waits, one for each call under way. -/
def work (p : Phase) : Nat := 2 * (p.total - p.started) + p.inFlight.length

theorem opening_work (desk : Desk) (task : Task) (total permits : Nat) :
    (opening desk task total permits).work = 2 * total := rfl

theorem step_work {p q : Phase} {m : Move} (h : Step p m q) (hp : p.Sound) : q.work < p.work := by
  obtain ⟨_, _, -, hs, -, -, rfl⟩ | ⟨_, _, _, -, hs, -, -, rfl⟩ | ⟨index, call, answer, -, hl, rfl⟩ := step_cases h
  · simp only [work, skip_total, skip_started, skip_inFlight]
    omega
  · simp only [work, send_total, send_started, send_inFlight, List.length_cons]
    omega
  · obtain ⟨l₁, l₂, he, hf⟩ := filter_of_lookup hp.nodup hl
    simp only [work, settle_total, settle_started, settle_inFlight, hf]
    simp only [he, List.length_append, List.length_cons]
    omega

theorem run_work {p q : Phase} {ms : List Move} (h : Run p ms q) (hp : p.Sound) : ms.length + q.work ≤ p.work := by
  induction h with
  | nil => exact Nat.le_of_eq (Nat.zero_add _)
  | @snoc ms m q r hr hs ih =>
      have hlt := step_work hs (run_sound hr hp)
      rw [List.length_append, List.length_singleton]
      omega

theorem length_moves (ms : List Move) : ms.length = (begun ms).length + (ended ms).length := by
  induction ms with
  | nil => rfl
  | cons m ms ih =>
      cases m with
      | start time call => exact (congrArg (· + 1) ih).trans (Nat.add_right_comm _ _ 1)
      | finish index call answer => exact congrArg (· + 1) ih

theorem Sound.unfinished_iff {p : Phase} (hp : p.Sound) (i : Nat) : p.attempts[i]? = some none ↔
    (p.started ≤ i ∧ i < p.total) ∨ ∃ call, (i, call) ∈ p.inFlight := by
  constructor
  · intro hi
    by_cases hs : p.started ≤ i
    · rw [← hp.size]
      exact .inl ⟨hs, (Array.getElem?_eq_some_iff.mp hi).1⟩
    · obtain ⟨⟨j, call⟩, hm, rfl⟩ := List.mem_map.mp ((hp.mem_inFlight i).mpr ⟨Nat.lt_of_not_le hs, hi⟩)
      exact .inr ⟨call, hm⟩
  · rintro (⟨hs, ht⟩ | ⟨call, hm⟩)
    · exact hp.waiting i hs ht
    · exact ((hp.mem_inFlight i).mp (List.mem_map.mpr ⟨_, hm, rfl⟩)).2

/-- A phase that has not ended can start its next task, or a call under way can be answered. -/
theorem Sound.can_move {p : Phase} (hp : p.Sound) (hpos : 0 < p.inFlight.length + p.free) (hn : ¬p.Ended) :
    (∀ time, ∃ call q, Step p (.start time call) q) ∨
      ∃ index call, ∀ answer, ∃ q, Step p (.finish index call answer) q := by
  cases hin : p.inFlight with
  | cons c l => exact .inr ⟨c.1, c.2, hp.exists_finish (hin ▸ List.mem_cons_self ..)⟩
  | nil =>
      have hlt : p.started < p.total := Nat.lt_of_le_of_ne hp.started_le fun he => hn ⟨he, hin⟩
      rw [hin, List.length_nil, Nat.zero_add] at hpos
      refine .inl fun time => ?_
      obtain ⟨call, q, hq⟩ := p.exists_start time hlt hpos
      exact ⟨call, q, .start hq⟩

theorem Sound.exists_step {p : Phase} (hp : p.Sound) (hpos : 0 < p.inFlight.length + p.free) (hn : ¬p.Ended) :
    ∃ m q, Step p m q := by
  obtain hstart | ⟨index, call, hfinish⟩ := hp.can_move hpos hn
  · obtain ⟨call, q, hq⟩ := hstart 0
    exact ⟨_, q, hq⟩
  · obtain ⟨q, hq⟩ := hfinish ⟨0, .error (.timeout (.ofNanos 0))⟩
    exact ⟨_, q, hq⟩

/-- What the moves of a phase have come to at its end: every task has started once and ended once, with its
result at its index. -/
structure Completed (p₀ : Phase) (ms : List Move) (p : Phase) : Prop where
  starts : (begun ms).length = p₀.total
  /-- The starts are those of the tasks in turn. -/
  begins : ∀ i : Nat, i < p₀.total → ∃ q call, Begins p₀ ms i q call
  ends : (ended ms ++ skipped ms).Perm (List.range p₀.total)
  moves : ms.length = p₀.total + (ended ms).length
  length : p.results.length = p₀.total
  skips : ∀ i ∈ skipped ms, p.results[i]? = some .nothingToCancel
  answers : ∀ (i : Nat) (call : Call) (answer : Answer), Move.finish i call answer ∈ ms →
    p.results[i]? = some (call.attempt answer)

structure Lively (p₀ : Phase) (ms : List Move) (p : Phase) : Prop where
  enabled : ∀ i : Nat, p.attempts[i]? = some none →
    (∀ time, ∃ call q, Step p (.start time call) q) ∨
      ∃ index call, ∀ answer, ∃ q, Step p (.finish index call answer) q
  answerable : ∀ (i : Nat) (call : Call), (i, call) ∈ p.inFlight → ∀ answer, ∃ q, Step p (.finish i call answer) q
  bounded : ms.length ≤ 2 * p₀.total
  stops : (∀ m q, ¬Step p m q) ↔ p.Ended
  completed : p.Ended → Completed p₀ ms p

variable {desk : Desk} {task : Task} {total permits : Nat} {ms : List Move} {p : Phase}

theorem run_completed (h : Run (opening desk task total permits) ms p) (he : p.Ended) :
    Completed (opening desk task total permits) ms p where
  starts := run_length_begun h he
  begins i hi := by
    obtain ⟨q, hq⟩ := run_begins h (List.getElem?_eq_getElem (Nat.lt_of_lt_of_eq hi (run_length_begun h he).symm))
    exact ⟨q, _, hq⟩
  ends := run_completed_perm h he
  moves := by rw [length_moves, run_length_begun h he]; rfl
  length := run_length_results h he
  skips i hi := run_result_skipped h he (mem_skipped.mp hi)
  answers _ _ _ hm := run_result_finished h he hm

theorem run_lively (h : Run (opening desk task total permits) ms p) (hpos : 0 < permits) :
    Lively (opening desk task total permits) ms p := by
  have hp := run_opening_sound h
  have hfree : 0 < p.inFlight.length + p.free := by
    rw [run_permits h (opening_sound desk task total permits)]
    exact Nat.lt_of_lt_of_eq hpos (Nat.zero_add permits).symm
  refine ⟨?_, fun i call hi => hp.exists_finish hi, ?_, ⟨?_, fun he m q => he.not_step⟩, run_completed h⟩
  · intro i hi
    have hn : ¬p.Ended := by
      rintro ⟨hs, hin⟩
      obtain ⟨hle, hlt⟩ | ⟨call, hm⟩ := (hp.unfinished_iff i).mp hi
      · exact absurd hlt (Nat.not_lt_of_le (hs ▸ hle))
      · rw [hin] at hm
        cases hm
    exact hp.can_move hfree hn
  · have := run_work h (opening_sound desk task total permits)
    rw [opening_work] at this
    exact Nat.le_of_add_right_le this
  · intro hstuck
    by_contra hn
    obtain ⟨m, q, hq⟩ := hp.exists_step hfree hn
    exact hstuck m q hq

end Phase

namespace Driver

def Busy : Driver → Prop
  | .idle _ _ => False
  | .warming _ _ _ | .measuring _ _ => True

/-- At most so many steps are left before a driver is idle. -/
def work : Driver → Nat
  | .idle _ _ => 0
  | .warming _ total p => p.work + 2 * total + 2
  | .measuring _ p => p.work + 1

structure Progresses (d : Driver) : Prop where
  moves : d.Busy → ∃ m e, Step d m e
  ends : ¬∃ f : Nat → Driver, f 0 = d ∧ ∀ n, (f n).Busy ∧ ∃ m, Step (f n) m (f (n + 1))

variable {permits : Nat} {d e : Driver} {m : Option Move}

theorem step_work (h : Step d m e) (hd : d.Busy) (hs : d.Sound permits) : e.work < d.work := by
  cases h with
  | begin | warmUp => exact hd.elim
  | warming h =>
      have := Phase.step_work h hs.1
      simp only [work]
      omega
  | @warm workload total p elapsed h =>
      have hle := workload.measuredCount_le total (some (summary p elapsed))
      simp only [work, measured, Phase.opening_work]
      omega
  | measuring h => exact Nat.add_lt_add_right (Phase.step_work h hs.1) 1
  | finish => exact Nat.succ_pos _

theorem exists_step (hd : d.Busy) (hs : d.Sound permits) (hpos : 0 < permits) : ∃ m e, Step d m e := by
  cases d with
  | idle => exact hd.elim
  | warming workload total p =>
      by_cases he : p.Ended
      · exact ⟨_, _, @Step.warm workload total p (.ofNanos 0) he⟩
      · obtain ⟨m, q, hq⟩ := hs.1.exists_step (hs.2 ▸ hpos) he
        exact ⟨_, _, .warming hq⟩
  | measuring workload p =>
      by_cases he : p.Ended
      · exact ⟨_, _, @Step.finish workload p (.ofNanos 0) he⟩
      · obtain ⟨m, q, hq⟩ := hs.1.exists_step (hs.2 ▸ hpos) he
        exact ⟨_, _, .measuring hq⟩

theorem Sound.progresses (hs : d.Sound permits) (hpos : 0 < permits) : d.Progresses := by
  refine ⟨fun hd => exists_step hd hs hpos, ?_⟩
  rintro ⟨f, hzero, hf⟩
  have hsound (n : Nat) : (f n).Sound permits := by
    induction n with
    | zero => exact hzero ▸ hs
    | succ n ih =>
        obtain ⟨-, m, hm⟩ := hf n
        exact step_sound hm ih
  have hwork (n : Nat) : n + (f n).work ≤ d.work := by
    induction n with
    | zero => exact Nat.le_of_eq (by rw [hzero, Nat.zero_add])
    | succ n ih =>
        obtain ⟨hd, m, hm⟩ := hf n
        have := step_work hm hd (hsound n)
        omega
  have := hwork (d.work + 1)
  omega

end Driver

/-- A run with a warm-up answers the tasks of both of its phases. -/
structure WarmRun.Completed {workload : Workload} {total permits : Nat} {desk : Desk}
    (r : WarmRun workload total desk permits) : Prop where
  warmUp : Phase.Completed (Driver.warmUp desk permits r.count) r.warmUpMoves r.warmUp
  /-- All calls of the warm-up are placements. -/
  placements : (r.warmUpMoves.filterMap Move.sent?).map Prod.snd =
    ((desk.note (.warmingUp r.count)).orders r.count).map Call.place
  measured : Phase.Completed r.ready r.measuredMoves r.measured

theorem WarmRun.completed {workload : Workload} {total permits : Nat} {desk : Desk}
    (r : WarmRun workload total desk permits) : r.Completed where
  warmUp := Phase.run_completed r.warmUp_run r.warmUp_ended
  placements := r.warmUp_calls.trans (by rw [r.requested_eq])
  measured := Phase.run_completed r.measured_run r.measured_ended

namespace Session

variable (s : Session)

structure Returns (workload : Workload) (total : Nat) : Prop where
  direct : workload.warmupCount total = .ok none → ∃ ms p record t, s.run workload total = .ok (record, t) ∧
    Phase.Completed (Driver.measured workload total none s.desk s.permits) ms p ∧
    Answers s.venue s.tally ms ∧ record.attempts = p.results ∧ record.warmup = none
  warm : ∀ count, workload.warmupCount total = .ok (some count) →
    ∃ (r : WarmRun workload total s.desk s.permits) (record : RunRecord) (t : Session),
      s.run workload total = .ok (record, t) ∧ r.Completed ∧ Answers s.venue s.tally r.warmUpMoves ∧
      Answers s.venue (s.tally.after (begun r.warmUpMoves)) r.measuredMoves ∧
      record.attempts = r.measured.results ∧ record.warmup = some r.warmup ∧ r.warmup.requested = count
  place : workload = .place → ∃ record t, s.run workload total = .ok (record, t) ∧ record.attempts.length = total
  both : workload = .both → total + total / 2 ≤ maxCount → ∃ record t, s.run workload total = .ok (record, t) ∧
    record.warmup.map Warmup.requested = some (total + total / 2) ∧ record.attempts.length = total

theorem returns (workload : Workload) (total : Nat) (hpos : 0 < s.permits) : s.Returns workload total where
  direct h := by
    obtain ⟨ms, p, now, peak, elapsed, hr, he, ha, hrun⟩ := s.run_direct h hpos
    exact ⟨ms, p, _, _, hrun, Phase.run_completed hr he, ha, rfl, rfl⟩
  warm count h := by
    obtain ⟨r, now, peak, elapsed, ha, ha', hrun⟩ := s.run_warm h hpos
    have hcount : r.count = count := by
      have := r.warmupCount_eq.symm.trans h
      exact Option.some.inj (Except.ok.inj this)
    exact ⟨r, _, _, hrun, r.completed, ha, ha', rfl, rfl, r.requested_eq.trans hcount⟩
  place h := by
    subst h
    have hw : Workload.place.warmupCount total = .ok none := rfl
    obtain ⟨ms, p, now, peak, elapsed, hr, he, -, hrun⟩ := s.run_direct hw hpos
    exact ⟨_, _, hrun, Phase.run_length_results hr he⟩
  both h hmax := by
    subst h
    obtain ⟨r, now, peak, elapsed, -, -, hrun⟩ := s.run_warm (Workload.warmupCount_both hmax) hpos
    have hmixed := r.mixedAccount
    exact ⟨_, _, hrun, congrArg some hmixed.requested, hmixed.length⟩

end Session

/-- Whatever the calls are answered, in any order and on the clock: a phase can move until it has ended, and then
each of its tasks has its result; no driver is busy for ever, and a run of a session returns unless the count of its
warm-up overflows. -/
theorem every_task_answered (permits : Nat) (hpos : 0 < permits) :
    (∀ (desk : Desk) (task : Task) (total : Nat) (ms : List Move) (p : Phase),
      Phase.Run (.opening desk task total permits) ms p → Phase.Lively (.opening desk task total permits) ms p) ∧
    (∀ (desk : Desk) (ms : List Move) (d : Driver), Driver.History (.idle desk permits) ms d → d.Progresses) ∧
    (∀ (workload : Workload) (total : Nat) (desk : Desk) (r : WarmRun workload total desk permits), r.Completed) ∧
    ∀ s : Session, s.permits = permits → ∀ (workload : Workload) (total : Nat), s.Returns workload total := by
  refine ⟨fun _ _ _ _ _ h => Phase.run_lively h hpos, ?_, fun _ _ _ r => r.completed, ?_⟩
  · intro desk ms d h
    exact (Driver.history_sound h rfl).progresses hpos
  · rintro s rfl workload total
    exact s.returns workload total hpos

/-- Two permits, on a service whose answers are timeouts, pages that say it is busy and pages without an id: a run of
three mixed tasks has three results after four placements. -/
theorem every_task_answered_by_failures :
    let s : Session := {
      venue := fun number _ => match number % 3 with
        | 0 => ⟨5, .error (.timeout ⟨10, 0⟩)⟩
        | 1 => ⟨0, .ok ⟨503, "busy"⟩⟩
        | _ => ⟨3, .ok ⟨200, "<html>"⟩⟩
      permits := 2
      desk := { symbol := "BTCUSDT", draws := .cyclic #[1] } }
    (∃ record t, s.run .both 3 = .ok (record, t) ∧ record.warmup.map Warmup.requested = some 4 ∧
      record.attempts.length = 3) ∧
    (∃ ms d, Driver.History (.idle s.desk 2) ms d ∧ d.Busy ∧ d.Progresses) ∧
    ∃ ms p, Phase.Run (.opening s.desk .place 3 2) ms p ∧ p.inFlight.length = 1 ∧
      Phase.Lively (.opening s.desk .place 3 2) ms p := by
  intro s
  obtain ⟨hphase, hdriver, -, hsession⟩ := every_task_answered 2 (by decide)
  have hbegin : Driver.Step (.idle s.desk 2) none (.measuring .place (Driver.measured .place 3 none s.desk 2)) := .begin rfl
  have hstart : Phase.Step (.opening s.desk .place 3 2) (.start 0 _) _ := .start rfl
  have hhistory := Driver.History.nil.silent hbegin
  have hrun := Phase.Run.nil.snoc hstart
  exact ⟨(hsession s rfl .both 3).both rfl (by decide), ⟨_, _, hhistory, trivial, hdriver _ _ _ hhistory⟩,
    ⟨_, _, hrun, rfl, hphase _ _ _ _ _ hrun⟩⟩

end OrderBench
