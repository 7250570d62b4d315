import OrderBench.Proofs.Effects
import OrderBench.Proofs.NamedOrders
import OrderBench.Proofs.Outcomes

/-!
The open orders of a session, in balance with what its requests and runs report.
-/
namespace OrderBench

namespace Session

variable (s : Session)

def warmUpAttempts : Option Warmup → List Attempt
  | none => []
  | some w => ((s.note (.warmingUp w.requested)).runPhase .place w.requested).1

/-- What a request reports, and for a run also the attempts of its warm-up. -/
def attemptsOf : Request → List Attempt
  | .place side price => [(s.place side price).1]
  | .cancel id => [(s.cancel id).1]
  | .run workload total => match s.run workload total with
    | .ok (r, _) => s.warmUpAttempts r.warmup ++ r.attempts
    | .error _ => []

def attemptsOfAll (s : Session) : List Request → List Attempt
  | [] => []
  | request :: requests => s.attemptsOf request ++ (s.serve request).attemptsOfAll requests

theorem place_course (side : Option Side) (price : Option Int64) :
    s.desk.Course [(s.place side price).1] (s.place side price).2.desk :=
  (Desk.Act.place s.now side price).course.snoc (.settle _ _)

theorem cancel_course (id : Option String) : s.desk.Course [(s.cancel id).1] (s.cancel id).2.desk := by
  rw [cancel_await]
  rcases hc : s.desk.cancel s.now id with ⟨_ | call, e⟩
  · exact (Desk.Act.cancel hc).course
  · exact (Desk.Act.cancel hc).course.snoc (.settle _ _)

/-- The answer to a cancel brings nothing back. -/
theorem await_openOrders {id : Option String} {call : Option Call} {e : Desk} (h : s.desk.Cancels s.now id call e) :
    (s.await call e).2.desk.openOrders = e.openOrders := by
  cases h with
  | given | oldest => exact Desk.settle_cancel_openOrders _ _ _
  | idle => rfl

theorem runPhase_accounted (task : Task) (total : Nat) (hpos : 0 < s.permits) :
    s.desk.Accounted (s.runPhase task total).1 (s.runPhase task total).2.desk ∧
      (s.runPhase task total).2.permits = s.permits := by
  obtain ⟨ms, p, now, peak, hr, he, -, hp⟩ := s.runPhase_eq task total hpos
  rw [hp]
  refine ⟨?_, Phase.ended_free hr he⟩
  apply (Desk.course_accounted (Phase.run_course hr)).perm
  exact (Phase.run_results_perm hr).symm

theorem runPhase_noted (task : Task) (total : Nat) (hpos : 0 < s.permits) {e : Entry} (he : e.Aside) :
    s.desk.Accounted (s.runPhase task total).1 ((s.runPhase task total).2.note e).desk := by
  have hnoted := (s.runPhase_accounted task total hpos).1.trans (.note he)
  rwa [List.append_nil] at hnoted

theorem warmUp_accounted (count : Nat) (hpos : 0 < s.permits) :
    s.desk.Accounted (s.warmUpAttempts (some (s.warmUp count).1)) (s.warmUp count).2.desk ∧
      (s.warmUp count).2.permits = s.permits := by
  have hbefore : s.desk.Accounted [] (s.note (.warmingUp count)).desk := .note trivial
  refine ⟨hbefore.trans ?_, ((s.note (.warmingUp count)).runPhase_accounted .place count hpos).2⟩
  apply (s.note (.warmingUp count)).runPhase_noted .place count hpos
  trivial

theorem run_accounted {workload : Workload} {total : Nat} {r : RunRecord} {t : Session} (hpos : 0 < s.permits)
    (h : s.run workload total = .ok (r, t)) :
    s.desk.Accounted (s.warmUpAttempts r.warmup ++ r.attempts) t.desk := by
  rcases hw : workload.warmupCount total with fault | _ | count
  · simp [s.run_error hw] at h
  · simp only [run_eq_ok_iff, s.perform_none hw, Except.ok.injEq, Prod.mk.injEq] at h
    obtain ⟨rfl, rfl⟩ := h
    apply s.runPhase_noted _ _ hpos
    trivial
  · -- the warm-up returns its permits, so that the measured phase can run
    simp only [run_eq_ok_iff, s.perform_some hw, Except.ok.injEq, Prod.mk.injEq] at h
    obtain ⟨rfl, rfl⟩ := h
    obtain ⟨hwarm, hpermits⟩ := s.warmUp_accounted count hpos
    apply hwarm.trans
    apply (s.warmUp count).2.runPhase_noted _ _ (hpermits ▸ hpos)
    trivial

theorem serve_accounted (request : Request) (hpos : 0 < s.permits) :
    s.desk.Accounted (s.attemptsOf request) (s.serve request).desk ∧ (s.serve request).permits = s.permits := by
  cases request with
  | place side price => exact ⟨Desk.course_accounted (s.place_course side price), rfl⟩
  | cancel id =>
      refine ⟨Desk.course_accounted (s.cancel_course id), ?_⟩
      simp only [serve, cancel, await]
      split <;> rfl
  | run workload total =>
      simp only [serve, attemptsOf]
      cases hr : s.run workload total with
      | error fault => exact ⟨.nil, rfl⟩
      | ok p => exact ⟨s.run_accounted hpos hr, (s.run_history hpos hr).2⟩

theorem serveAll_accounted (requests : List Request) (hpos : 0 < s.permits) :
    s.desk.Accounted (s.attemptsOfAll requests) (s.serveAll requests).desk := by
  induction requests generalizing s with
  | nil => exact .nil
  | cons request requests ih =>
      obtain ⟨hserved, hpermits⟩ := s.serve_accounted request hpos
      exact hserved.trans (ih (s.serve request) (hpermits ▸ hpos))

end Session

/-- What each half of an operation does to the open orders, what a request does that is served at once, and what any
operations and runs come to, also beside one another. -/
theorem operations_accounted (s : Session) (d : Desk) :
    (∀ time side price, (d.place time side price).2.openOrders = d.openOrders) ∧
    (∀ call answer, d.Registers (d.settle call answer).1 (d.settle call answer).2) ∧
    (∀ time id, d.Cancels time id (d.cancel time id).1 (d.cancel time id).2) ∧
    (∀ id answer, (d.settle (.cancel id) answer).2.openOrders = d.openOrders) ∧
    (∀ attempts e, d.Course attempts e → d.Accounted attempts e) ∧
    (∀ permits ms e, Driver.History (.idle d permits) ms e →
      d.Accounted (ms.flatMap Phase.Move.attempts) e.desk) ∧
    (∀ side price, ∃ e : Desk, e.openOrders = s.desk.openOrders ∧
      e.Registers (s.place side price).1 (s.place side price).2.desk) ∧
    (∀ id, ∃ call e, s.desk.Cancels s.now id call e ∧ (s.cancel id).2.desk.openOrders = e.openOrders) ∧
    (0 < s.permits → ∀ requests, s.desk.Accounted (s.attemptsOfAll requests) (s.serveAll requests).desk) := by
  refine ⟨?_, d.settle_registers, d.cancels, d.settle_cancel_openOrders, ?_, ?_, ?_, ?_, ?_⟩
  · intro time side price
    rfl
  · intro attempts e h
    exact Desk.course_accounted h
  · intro permits ms e h
    exact Desk.course_accounted (Driver.history_course h)
  · intro side price
    refine ⟨(s.desk.place s.now side price).2, rfl, ?_⟩
    exact Desk.settle_registers _ (.place (s.desk.draft side price).1) _
  · intro id
    have h := s.desk.cancels s.now id
    exact ⟨_, _, h, s.await_openOrders h⟩
  · intro hpos requests
    exact s.serveAll_accounted requests hpos

/-- Placements that are all given the id `7`, cancels of it and of the oldest order, and a run, at a new desk; and a
placement that is still under way, by itself and in a run. -/
theorem operations_accounted_over_repeated_id :
    let s : Session := {
      venue := fun number _ => ⟨number, .ok ⟨200, "\x7b\"data\":\x7b\"orderId\":7\x7d\x7d"⟩⟩
      permits := 2
      desk := { symbol := "BTCUSDT", draws := .cyclic #[] } }
    let requests : List Session.Request :=
      [.place none none, .place (some .buy) none, .cancel (some "7"), .cancel (some ""), .cancel none, .run .both 2]
    let t := s.serveAll requests
    (t.desk.openOrders.size + t.desk.journal.takings.length = t.desk.journal.registrations.length ∧
      (s.attemptsOfAll requests).countP (·.offered?.isSome) =
        t.desk.journal.registrations.length + t.desk.journal.warnings.length) ∧
      s.desk.Accounted [] (s.desk.place 0 none none).2 ∧
      ∃ ms d, Driver.History (.idle s.desk s.permits) ms d ∧ d.inFlight.length = 1 ∧
        s.desk.Accounted (ms.flatMap Phase.Move.attempts) d.desk := by
  intro s requests t
  obtain ⟨-, -, -, -, hcourse, hhistory, -, -, hserved⟩ := operations_accounted s s.desk
  have hbegin : Driver.Step (.idle s.desk s.permits) none (.measuring .place
      (Driver.measured .place 2 none s.desk 2)) := .begin rfl
  have hstart : Phase.Step (Driver.measured .place 2 none s.desk 2) (.start 0 _) _ := .start rfl
  have h := (Driver.History.nil.silent hbegin).snoc (.measuring hstart)
  refine ⟨?_, hcourse _ _ (Desk.Act.place 0 none none).course, _, _, h, rfl, hhistory _ _ _ h⟩
  obtain ⟨since, hb, hsize, hplaced⟩ := hserved (by decide) requests
  obtain rfl : t.desk.journal = since := hb.journal.trans (List.append_nil _)
  exact ⟨hsize.trans (Nat.zero_add _), hplaced⟩

end OrderBench
