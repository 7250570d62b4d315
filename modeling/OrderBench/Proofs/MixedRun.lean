import OrderBench.Proofs.Mixing
import OrderBench.Proofs.Session

/-!
Runs of mixed tasks. Each task makes a call, a cancel only where an order is open for it; so the calls after the
warm-up are as many of each kind as the results.
-/
namespace OrderBench

open Phase (Move begun)

theorem Workload.warmupCount_both {total : Nat} (h : total + total / 2 ≤ maxCount) :
    Workload.both.warmupCount total = .ok (some (total + total / 2)) := by
  rw [warmupCount_both_eq, if_pos h]

theorem Session.run_both_overflow (s : Session) {total : Nat} (h : maxCount < total + total / 2) :
    s.run .both total = .error .addOverflow := by
  have hw : Workload.both.warmupCount total = .error .addOverflow := by
    rw [Workload.warmupCount_both_eq, if_neg (Nat.not_le_of_lt h)]
  exact s.run_error hw

namespace WarmRun

variable {workload : Workload} {total permits : Nat} {desk : Desk} (r : WarmRun workload total desk permits)

/-- The measured phase when it begins. -/
def ready : Phase :=
  Driver.measured workload total (some r.warmup) (r.warmUp.desk.note (.warmedUp r.warmup.created)) r.warmUp.free

def calls : List Call := ((r.warmUpMoves ++ r.measuredMoves).filterMap Move.sent?).map Prod.snd

theorem journal_calls :
    r.measured.desk.journal.calls.map Prod.snd = desk.journal.calls.map Prod.snd ++ r.calls := by
  have hwarm : r.warmUp.desk.journal.calls = desk.journal.calls ++ r.warmUpMoves.filterMap Move.sent? :=
    (Phase.run_calls r.warmUp_run).trans (congrArg (· ++ _) (Journal.calls_aside trivial))
  have hmeasured : r.measured.desk.journal.calls =
      r.warmUp.desk.journal.calls ++ r.measuredMoves.filterMap Move.sent? :=
    (Phase.run_calls r.measured_run).trans (congrArg (· ++ _) (Journal.calls_aside trivial))
  rw [hmeasured, hwarm, calls, List.append_assoc, ← List.filterMap_append, List.map_append]

theorem warmUp_calls :
    (r.warmUpMoves.filterMap Move.sent?).map Prod.snd =
      ((desk.note (.warmingUp r.count)).orders r.warmup.requested).map Call.place := by
  rw [Phase.map_sent, (Phase.run_placing r.warmUp_run).begun, r.warmUp_ended.1, List.filterMap_map]
  exact congrFun List.filterMap_eq_map _

/-- What a run of mixed tasks does after its warm-up: no cancel goes without an order. -/
structure MixedAccount (r : WarmRun .both total desk permits) : Prop where
  requested : r.warmup.requested = total + total / 2
  length : r.measured.results.length = total
  supplied : ∀ a ∈ r.measured.results, a.error? ≠ some "no orders available to cancel"
  /-- A task cancels the oldest order if its coin says so and one is open when it starts, else it places one,
  and the answer makes the result of its index. -/
  outcomes : ∀ i : Nat, i < total → ∃ p call answer, Phase.Begins r.ready r.measuredMoves i p (some call) ∧
    p.desk.Mixes (some call) ∧ Move.finish i call answer ∈ r.measuredMoves ∧
    r.measured.results[i]? = some (call.attempt answer)
  journal : r.measured.desk.journal.calls.map Prod.snd = desk.journal.calls.map Prod.snd ++ r.calls
  cancels : r.calls.countP (·.kind = .cancel) = r.measured.results.countP (·.kind = .cancel)
  places : r.calls.countP (·.kind = .place) =
    r.warmup.requested + r.measured.results.countP (·.kind = .place)

theorem count_both (r : WarmRun .both total desk permits) : r.count = total + total / 2 := by
  have h := r.warmupCount_eq
  rw [Workload.warmupCount_both_eq] at h
  split at h
  · exact (Option.some.inj (Except.ok.inj h)).symm
  · cases h

theorem measured_mixed (r : WarmRun .both total desk permits) :
    Phase.Run (.opening (r.warmUp.desk.note (.warmedUp r.warmup.created)) .mixed total r.warmUp.free)
      r.measuredMoves r.measured := r.measured_run

theorem mixedAccount (r : WarmRun .both total desk permits) : r.MixedAccount := by
  have hrun := r.measured_mixed
  have he := r.measured_ended
  have hout {i : Nat} (hi : i < total) := Phase.run_mixed hrun he hi
  have hkinds := Phase.run_mixed_kinds hrun he
  have hcount (kind : RequestKind) : r.calls.countP (·.kind = kind) =
      (((desk.note (.warmingUp r.count)).orders r.warmup.requested).map Call.place).countP (·.kind = kind) +
        r.measured.results.countP (·.kind = kind) := by
    have hmeasured := congrArg (List.countP (· = kind)) hkinds
    rw [List.countP_map, List.countP_map (f := Attempt.kind)] at hmeasured
    rw [calls, List.filterMap_append, List.map_append, List.countP_append, r.warmUp_calls]
    exact congrArg _ hmeasured
  have hlen : r.measured.results.length = total := Phase.run_length_results hrun he
  refine ⟨r.requested_eq.trans r.count_both, hlen, ?_, fun i hi => hout hi, r.journal_calls, ?_, ?_⟩
  · intro a ha
    obtain ⟨i, hi⟩ := List.mem_iff_getElem?.mp ha
    have hlt : i < total := hlen ▸ (List.getElem?_eq_some_iff.mp hi).1
    obtain ⟨p, call, answer, -, -, -, hres⟩ := hout hlt
    rw [hres, Option.some_inj] at hi
    rw [← hi]
    exact call.attempt_error_ne answer
  · rw [hcount, List.countP_map]
    simp [Function.comp_def, Call.kind]
  · rw [hcount, List.countP_map]
    simp [Function.comp_def, Call.kind, Desk.orders]

end WarmRun

/-- A run of mixed tasks never cancels without an order, with the answers in any order and on the clock. It runs
unless the count of its warm-up overflows. -/
theorem mixed_run_supplied (total : Nat) :
    (∀ (desk : Desk) (permits : Nat) (r : WarmRun .both total desk permits), r.MixedAccount) ∧
    ∀ s : Session, 0 < s.permits →
      (maxCount < total + total / 2 → s.run .both total = .error .addOverflow) ∧
      (total + total / 2 ≤ maxCount → ∃ (r : WarmRun .both total s.desk s.permits) (record : RunRecord) (t : Session),
        s.run .both total = .ok (record, t) ∧ record.attempts = r.measured.results ∧ record.warmup = some r.warmup ∧
        (∃ elapsed, t.desk = r.measured.desk.note (.finished .both r.measured.results.length elapsed)) ∧
        Session.Answers s.venue s.tally r.warmUpMoves ∧
        Session.Answers s.venue (s.tally.after (begun r.warmUpMoves)) r.measuredMoves ∧ r.MixedAccount) := by
  refine ⟨fun _ _ r => r.mixedAccount, fun s hpos => ⟨s.run_both_overflow, ?_⟩⟩
  intro h
  obtain ⟨r, now, peak, elapsed, ha, ha', hrun⟩ := s.run_warm (Workload.warmupCount_both h) hpos
  exact ⟨r, _, _, hrun, rfl, rfl, ⟨elapsed, rfl⟩, ha, ha', r.mixedAccount⟩

/-- Three tasks whose coins all say heads, on a service that places nothing: the one seed is cancelled, and the
other tasks place. -/
theorem mixed_run_supplied_with_one_seed :
    let s : Session := {
      venue := fun number _ => ⟨number, .ok ⟨503, "busy"⟩⟩
      permits := 2
      desk := { symbol := "BTCUSDT", openOrders := .registerAll .empty ["7"], draws := .cyclic #[1] } }
    ∃ (r : WarmRun .both 3 s.desk s.permits) (record : RunRecord) (t : Session),
      s.run .both 3 = .ok (record, t) ∧ record.attempts.length = 3 ∧ r.MixedAccount := by
  intro s
  obtain ⟨hany, hrun⟩ := mixed_run_supplied 3
  obtain ⟨r, record, t, ht, hr, -, -, -, -, hmixed⟩ := (hrun s (by decide)).2 (by decide)
  exact ⟨r, record, t, ht, by rw [hr, hmixed.length], hany _ _ r⟩

end OrderBench
