import OrderBench.Proofs.Cancellation
import OrderBench.Proofs.Placement
import OrderBench.Proofs.Session
import Mathlib.Data.List.Dedup

/-!
Runs of cancels. The warm-up tells how many tasks are measured, its open orders tell how many of them make a
call; on a driver without open orders these are the distinct ids that the warm-up got.
-/
namespace OrderBench

theorem Attempt.length_orderIds (as : List Attempt) :
    (as.filterMap orderId?).length + as.countP (fun a => a.succeeded && a.orderId?.isNone) =
      as.countP succeeded := by
  induction as with
  | nil => rfl
  | cons a as ih =>
      rw [List.countP_cons, List.countP_cons, ← ih]
      rcases hv : a.verdict with (_ | id) | message <;> simp [succeeded, orderId?, hv] <;> omega

theorem length_dedup_lt_iff {α : Type} [DecidableEq α] (l : List α) : l.dedup.length < l.length ↔ ¬l.Nodup := by
  have hsub := List.dedup_sublist l
  constructor
  · intro hlt hn
    rw [List.dedup_eq_self.mpr hn] at hlt
    exact Nat.lt_irrefl _ hlt
  · intro hn
    refine Nat.lt_of_le_of_ne hsub.length_le fun he => hn ?_
    exact List.dedup_eq_self.mp (hsub.eq_of_length he)

namespace WarmRun

variable {total permits : Nat} {desk : Desk} (r : WarmRun .cancel total desk permits)

/-- How many calls to cancel an order the run makes. -/
def sent : Nat := min r.warmup.created r.stock.length

/-- The ids that the warm-up got, in the order of its placements. -/
def returned : List String := r.warmUp.results.filterMap Attempt.orderId?

/-- What a run of cancels does, from its warm-up to the orders that it leaves open. -/
structure CancelAccount : Prop where
  requested : r.warmup.requested = min total 100
  created : r.warmup.created = r.warmUp.results.countP Attempt.succeeded
  /-- The placements of the warm-up come first, then the cancels of the oldest open orders. -/
  calls : ∃ orders : List OrderRequest, orders.length = r.warmup.requested ∧
    r.measured.desk.journal.calls.map Prod.snd =
      desk.journal.calls.map Prod.snd ++ orders.map Call.place ++ (r.stock.take r.sent).map Call.cancel
  count : (r.measuredMoves.filterMap Phase.Move.sent?).length = r.sent
  results : r.measured.results.length = r.warmup.created
  kinds : ∀ a ∈ r.measured.results, a.kind = .cancel
  outcomes : ∀ i : Nat, i < r.sent → ∃ id answer, r.stock[i]? = some id ∧
    Phase.Move.finish i (.cancel id) answer ∈ r.measuredMoves ∧
    r.measured.results[i]? = some ((Call.cancel id).attempt answer)
  idle : ∀ i : Nat, r.sent ≤ i → i < r.warmup.created →
    r.measured.results[i]? = some ⟨.cancel, 0, .zero, .failure "no orders available to cancel"⟩
  left : r.measured.desk.openOrders.toList = r.stock.drop r.sent

/-- What a run of cancels does on a driver without open orders: it cancels what its warm-up got. -/
structure FreshAccount : Prop where
  cancelled : r.measuredMoves.filterMap Phase.Move.cancels? = r.stock
  registered : r.warmUp.desk.journal.registrations = desk.journal.registrations ++ r.stock
  nodup : r.stock.Nodup
  mem_stock : ∀ id, id ∈ r.stock ↔ id ∈ r.returned
  sent : r.sent = r.returned.dedup.length
  fewer : r.sent < r.warmup.created ↔
    (∃ a ∈ r.warmUp.results, a.succeeded = true ∧ a.orderId? = none) ∨ ¬r.returned.Nodup
  left : r.measured.desk.openOrders.toList = []

theorem count_cancel : r.count = min total 100 := by
  have h := r.warmupCount_eq
  simp only [Workload.warmupCount, Except.ok.injEq, Option.some.injEq] at h
  exact h.symm

theorem created_le : r.warmup.created ≤ total := by
  have hlen := Phase.run_length_results r.warmUp_run r.warmUp_ended
  have hle : r.warmup.created ≤ r.warmUp.results.length := List.countP_le_length
  have hcount := r.count_cancel
  omega

/-- The measured phase has a task for each success of the warm-up. -/
theorem measured_cancel :
    Phase.Run (.opening (r.warmUp.desk.note (.warmedUp r.warmup.created)) .cancel r.warmup.created r.warmUp.free)
      r.measuredMoves r.measured := by
  have h : Phase.Run (.opening (r.warmUp.desk.note (.warmedUp r.warmup.created)) .cancel
      (Workload.cancel.measuredCount total (some r.warmup)) r.warmUp.free) r.measuredMoves r.measured :=
    r.measured_run
  have hcount : Workload.cancel.measuredCount total (some r.warmup) = r.warmup.created :=
    Nat.min_eq_right r.created_le
  rwa [hcount] at h

theorem sent_cancel : (r.measuredMoves.filterMap Phase.Move.sent?).map Prod.snd =
    (r.stock.take r.sent).map Call.cancel := by
  rw [Phase.map_sent, Phase.run_cancels r.measured_cancel r.measured_ended, Phase.cancels_calls, sent,
    ← List.take_eq_take_min]
  rfl

theorem cancelAccount : r.CancelAccount := by
  have hrun := r.measured_cancel
  have he := r.measured_ended
  have hle : r.sent ≤ r.warmup.created := Nat.min_le_left _ _
  have hle' : r.sent ≤ r.stock.length := Nat.min_le_right _ _
  refine ⟨r.requested_eq.trans r.count_cancel, rfl, ?_, ?_, Phase.run_length_results hrun he,
    fun a => Phase.run_cancel_kind hrun he, ?_, ?_, ?_⟩
  · refine ⟨(desk.note (.warmingUp r.count)).orders r.count, ?_, ?_⟩
    · rw [requested_eq, Desk.orders, List.length_map, List.length_range]
    · have hwarm := Phase.run_calls_place r.warmUp_run r.warmUp_ended
      rw [Phase.run_calls hrun, List.map_append, r.sent_cancel]
      refine congrArg (· ++ _) ?_
      simpa [Phase.opening, Entry.call?] using hwarm
  · have := congrArg List.length r.sent_cancel
    rw [List.length_map, List.length_map, List.length_take, Nat.min_eq_left hle'] at this
    exact this
  · intro i hi
    have hid := List.getElem?_eq_getElem (Nat.lt_of_lt_of_le hi hle')
    obtain ⟨answer, hm, hres⟩ := Phase.run_cancel_sent hrun he (Nat.lt_of_lt_of_le hi hle) hid
    exact ⟨_, answer, hid, hm, hres⟩
  · intro i hi hc
    have hlen : r.stock.length ≤ i := by
      rw [sent] at hi
      omega
    exact Phase.run_cancel_idle hrun he hc (List.getElem?_eq_none hlen)
  · refine (Phase.run_cancel_openOrders hrun he).trans ?_
    rw [sent, ← List.drop_eq_drop_min]
    rfl

/-- Without open orders before it, a warm-up leaves the ids that it got, each once. -/
theorem stock_perm (hopen : desk.openOrders.toList = []) : r.stock.Perm r.returned.dedup := by
  apply (List.perm_ext_iff_of_nodup r.warmUp.desk.openOrders.nodup (List.nodup_dedup r.returned)).mpr
  intro id
  have h := Phase.run_mem_openOrders r.warmUp_run r.warmUp_ended id
  simp only [Desk.note_openOrders, hopen, List.not_mem_nil, false_or] at h
  exact h.trans List.mem_dedup.symm

theorem freshAccount (hopen : desk.openOrders.toList = []) : r.FreshAccount := by
  have hperm := r.stock_perm hopen
  have hlen : r.stock.length = r.returned.dedup.length := hperm.length_eq
  have hle : r.returned.dedup.length ≤ r.returned.length := (List.dedup_sublist r.returned).length_le
  have hcreated : r.returned.length + r.warmUp.results.countP (fun a => a.succeeded && a.orderId?.isNone) =
      r.warmup.created := Attempt.length_orderIds _
  have hsent : r.sent = r.stock.length := Nat.min_eq_right (by omega)
  refine ⟨?_, ?_, r.warmUp.desk.openOrders.nodup, ?_, hsent.trans hlen, ?_, ?_⟩
  · have hcancels : r.measuredMoves.filterMap Phase.Move.cancels? =
        ((r.measuredMoves.filterMap Phase.Move.sent?).map Prod.snd).filterMap Call.cancels? := by
      rw [List.filterMap_map, List.filterMap_filterMap]
      rfl
    rw [hcancels, r.sent_cancel, hsent, List.take_length, List.filterMap_map]
    exact List.filterMap_some
  · obtain ⟨new, hq, hr⟩ := (Phase.run_placing r.warmUp_run).accepted
    have hreg : (desk.note (.warmingUp r.count)).journal.registrations = desk.journal.registrations :=
      Journal.registrations_aside trivial
    rw [Desk.note_openOrders, hopen, List.nil_append] at hq
    rw [hr, hreg, ← hq]
    rfl
  · intro id
    rw [hperm.mem_iff, List.mem_dedup]
  · have hpos : 0 < r.warmUp.results.countP (fun a => a.succeeded && a.orderId?.isNone) ↔
        ∃ a ∈ r.warmUp.results, a.succeeded = true ∧ a.orderId? = none := by
      simp [List.countP_pos_iff]
    rw [← hpos, ← length_dedup_lt_iff]
    omega
  · rw [r.cancelAccount.left, hsent, List.drop_length]

end WarmRun

/-- A run of cancels is accounted for, with the answers in any order and on the clock. -/
theorem cancel_run_accounted (total : Nat) :
    (∀ (desk : Desk) (permits : Nat) (r : WarmRun .cancel total desk permits),
      r.CancelAccount ∧ (desk.openOrders.toList = [] → r.FreshAccount)) ∧
    ∀ s : Session, 0 < s.permits → ∃ (r : WarmRun .cancel total s.desk s.permits) (record : RunRecord) (t : Session),
      s.run .cancel total = .ok (record, t) ∧ record.attempts = r.measured.results ∧ record.warmup = some r.warmup ∧
      (∃ elapsed, t.desk = r.measured.desk.note (.finished .cancel r.measured.results.length elapsed)) ∧
      Session.Answers s.venue s.tally r.warmUpMoves ∧
      Session.Answers s.venue (s.tally.after (Phase.begun r.warmUpMoves)) r.measuredMoves ∧
      r.CancelAccount ∧ (s.desk.openOrders.toList = [] → r.FreshAccount) := by
  refine ⟨fun _ _ r => ⟨r.cancelAccount, r.freshAccount⟩, ?_⟩
  intro s hpos
  have hw : Workload.cancel.warmupCount total = .ok (some (min total maxCancelWarmup)) := rfl
  obtain ⟨r, now, peak, elapsed, ha, ha', hrun⟩ := s.run_warm hw hpos
  exact ⟨r, _, _, hrun, rfl, rfl, ⟨elapsed, rfl⟩, ha, ha', r.cancelAccount, r.freshAccount⟩

/-- A hundred and fifty tasks, on a service that gives the id `7` to every third placement, none to the next
one and a page without an id to the last. -/
theorem cancel_run_accounted_over_repeated_id :
    let s : Session := {
      venue := fun number _ => ⟨number % 4, .ok ⟨200, match number % 3 with
        | 0 => "\x7b\"data\":\x7b\"orderId\":7\x7d\x7d"
        | 1 => "\x7b\"data\":\x7b\x7d\x7d"
        | _ => ""⟩⟩
      permits := 3
      desk := { symbol := "BTCUSDT", draws := .cyclic #[] } }
    ∃ (r : WarmRun .cancel 150 s.desk s.permits) (record : RunRecord) (t : Session),
      s.run .cancel 150 = .ok (record, t) ∧ r.warmup.requested = 100 ∧ record.attempts.length = r.warmup.created ∧
      t.desk.openOrders.toList = [] ∧ r.CancelAccount ∧ r.FreshAccount := by
  intro s
  obtain ⟨hany, hrun⟩ := cancel_run_accounted 150
  obtain ⟨r, record, t, ht, hr, -, ⟨elapsed, hd⟩, -, -, hc, hf⟩ := hrun s (by decide)
  have hfresh := (hany s.desk s.permits r).2 rfl
  refine ⟨r, record, t, ht, hc.requested, ?_, ?_, hc, hf rfl⟩
  · rw [hr, hc.results]
  · rw [hd, Desk.note_openOrders, hfresh.left]

end OrderBench
