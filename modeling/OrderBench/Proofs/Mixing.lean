import OrderBench.Proofs.Placement

/-!
Phases of mixed tasks. The coin of a task and the open orders at its start decide what it calls; a task that
looks at the open orders takes the oldest one in the same start, so no cancel goes without an order.
-/
namespace OrderBench

namespace Draws

/-- The draws that are left after so many mixed tasks, where each one with heads finds an open order. -/
def afterMixed (d : Draws) : Nat → Draws
  | 0 => d
  | n + 1 => (d.afterMixed n).skip (if (d.afterMixed n).coin.1 then 1 else 3)

def heads (d : Draws) (i : Nat) : Bool := (d.afterMixed i).coin.1

/-- What a mixed task does if an order is open. -/
def kind (d : Draws) (i : Nat) : RequestKind := if d.heads i then .cancel else .place

theorem countP_heads_le (d : Draws) (n : Nat) : (List.range n).countP d.heads ≤ n :=
  Nat.le_trans List.countP_le_length (Nat.le_of_eq List.length_range)

end Draws

namespace Desk

/-- The call of a mixed task is the one for the coin that is tossed next and the open orders. -/
structure Mixes (d : Desk) (call : Option Call) : Prop where
  cancels_iff : ∀ id, call = some (.cancel id) ↔ d.draws.coin.1 = true ∧ d.openOrders.toList.head? = some id
  places_iff : (∃ order, call = some (.place order)) ↔ d.draws.coin.1 = false ∨ d.openOrders.toList = []

/-- Heads take the oldest open order with one draw; a placement takes two draws more. -/
theorem begin_mixed {d e : Desk} {time : Nat} {call : Option Call} (h : d.begin time .mixed = (call, e)) :
    (∃ id, d.draws.coin.1 = true ∧ d.openOrders.toList = id :: e.openOrders.toList ∧ call = some (.cancel id) ∧
        e.draws = d.draws.skip 1) ∨
      (d.draws.coin.1 = false ∨ d.openOrders.toList = []) ∧ ∃ order, call = some (.place order) ∧
        e.openOrders = d.openOrders ∧ e.draws = d.draws.skip 3 := by
  simp only [begin] at h
  split at h
  · next hc =>
    rw [Bool.and_eq_true, Bool.not_eq_true'] at hc
    cases ht : d.openOrders.take? with
    | none =>
        -- the look at the open orders and the take see the same queue
        rw [d.openOrders.take?_eq_none_iff, ← d.openOrders.isEmpty_iff, hc.2] at ht
        cases ht
    | some taken =>
        rw [cancel_some { d with draws := d.draws.coin.2 } time ht, Prod.mk.injEq] at h
        obtain ⟨rfl, rfl⟩ := h
        exact .inl ⟨taken.1, hc.1, OpenOrders.toList_of_take? ht, rfl, rfl⟩
  · next hc =>
    rw [Bool.and_eq_true, Bool.not_eq_true', not_and_or, Bool.not_eq_true, Bool.not_eq_false,
      d.openOrders.isEmpty_iff] at hc
    obtain ⟨rfl, rfl⟩ := Prod.mk.injEq .. ▸ h
    exact .inr ⟨hc, _, rfl, rfl, rfl⟩

theorem begin_mixes {d e : Desk} {time : Nat} {call : Option Call} (h : d.begin time .mixed = (call, e)) :
    d.Mixes call := by
  obtain ⟨id, hc, hq, rfl, -⟩ | ⟨hc, order, rfl, -, -⟩ := begin_mixed h
  · refine ⟨fun other => ?_, ?_⟩
    · rw [hc, hq]
      simp
    · simp [hc, hq]
  · refine ⟨fun other => ?_, iff_of_true ⟨order, rfl⟩ hc⟩
    obtain hc | hq := hc
    · simp [hc]
    · simp [hq]

end Desk

namespace Phase

variable {desk : Desk} {total permits : Nat} {ms : List Move} {p : Phase}

theorem step_mixed_sent {p q : Phase} {time : Nat} {call : Option Call} (h : Step p (.start time call) q)
    (ht : p.task = .mixed) : p.desk.Mixes call ∧ call ≠ none := by
  obtain ⟨time, call, he, hb⟩ | ⟨_, _, _, he, -⟩ := step_desk h
  · cases he
    rw [ht] at hb
    refine ⟨Desk.begin_mixes hb, ?_⟩
    obtain ⟨_, -, -, rfl, -⟩ | ⟨-, _, rfl, -, -⟩ := Desk.begin_mixed hb <;> exact Option.some_ne_none _
  · cases he

/-- Every mixed task makes the call for its coin and the open orders at its start. -/
theorem run_mixed (h : Run (opening desk .mixed total permits) ms p) (he : p.Ended) {i : Nat} (hi : i < total) :
    ∃ q call answer, Begins (opening desk .mixed total permits) ms i q (some call) ∧ q.desk.Mixes (some call) ∧
      Move.finish i call answer ∈ ms ∧ p.results[i]? = some (call.attempt answer) := by
  have hb := List.getElem?_eq_getElem (run_length_begun h he ▸ hi)
  obtain ⟨q, hq⟩ := run_begins h hb
  obtain ⟨before, time, after, r, -, hr, -, hs⟩ := id hq
  obtain ⟨hmix, hsome⟩ := step_mixed_sent hs (run_task hr).1
  obtain ⟨call, hcall⟩ := Option.ne_none_iff_exists'.mp hsome
  rw [hcall] at hb hq hmix
  obtain ⟨answer, hm⟩ := run_answered h he hb
  exact ⟨q, call, answer, hq, hmix, hm, run_result_finished h he hm⟩

theorem run_mixed_kinds (h : Run (opening desk .mixed total permits) ms p) (he : p.Ended) :
    ((ms.filterMap Move.sent?).map Prod.snd).map Call.kind = p.results.map Attempt.kind := by
  rw [map_sent, run_result_kinds h he, List.map_filterMap, ← List.filterMap_eq_map]
  apply List.filterMap_congr
  intro call hc
  obtain ⟨i, hi⟩ := List.mem_iff_getElem?.mp hc
  have hlt : i < total := run_length_begun h he ▸ (List.getElem?_eq_some_iff.mp hi).1
  obtain ⟨q, c, answer, -, -, hm, -⟩ := run_mixed h he hlt
  rw [((run_told h).finished i c answer hm).1, Option.some_inj] at hi
  rw [← hi]
  rfl

/-- A phase of mixed tasks after some moves, where each task has found an open order: the coins alone tell the
kinds of the calls, and the cancels have taken the oldest orders. -/
structure Stocked (desk : Desk) (ms : List Move) (p : Phase) : Prop where
  draws : p.desk.draws = desk.draws.afterMixed p.started
  begun : (begun ms).map (·.map Call.kind) = (List.range p.started).map (some ∘ desk.draws.kind)
  openOrders : p.desk.openOrders.toList =
    (desk.openOrders.toList ++ ms.filterMap Move.offered?).drop ((List.range p.started).countP desk.draws.heads)

theorem opening_stocked (desk : Desk) (total permits : Nat) :
    Stocked desk [] (opening desk .mixed total permits) where
  draws := rfl
  begun := rfl
  openOrders := by
    rw [List.filterMap_nil, List.append_nil]
    rfl

theorem Stocked.start {desk : Desk} {p : Phase} {ms : List Move} (hp : Stocked desk ms p)
    (hs : p.started < desk.openOrders.toList.length) {time : Nat} {call : Option Call} {e : Desk}
    (hb : p.desk.begin time .mixed = (call, e)) :
    e.draws = desk.draws.afterMixed (p.started + 1) ∧ call.map Call.kind = some (desk.draws.kind p.started) ∧
      e.openOrders.toList = (desk.openOrders.toList ++ ms.filterMap Move.offered?).drop
        ((List.range (p.started + 1)).countP desk.draws.heads) := by
  have hcoin : p.desk.draws.coin.1 = desk.draws.heads p.started := by rw [hp.draws, Draws.heads]
  have hle := desk.draws.countP_heads_le p.started
  rw [List.range_succ, List.countP_append, List.countP_singleton, Draws.afterMixed, Draws.kind]
  obtain ⟨id, hc, hq, rfl, hd⟩ | ⟨hc, order, rfl, ho, hd⟩ := Desk.begin_mixed hb
  · rw [hcoin] at hc
    rw [← Draws.heads, hc, hd, hp.draws, if_pos rfl, if_pos rfl, if_pos rfl, ← List.tail_drop, ← hp.openOrders, hq]
    exact ⟨rfl, rfl, rfl⟩
  · have hne : p.desk.openOrders.toList ≠ [] := by
      rw [hp.openOrders, Ne, List.drop_eq_nil_iff, List.length_append]
      omega
    have htails := hc.resolve_right hne
    rw [hcoin] at htails
    rw [← Draws.heads, htails, hd, hp.draws, ho, hp.openOrders]
    exact ⟨rfl, rfl, rfl⟩

theorem Stocked.settle {desk : Desk} {p : Phase} {ms : List Move} (hp : Stocked desk ms p)
    (hs : p.started ≤ desk.openOrders.toList.length) {index : Nat} {call : Call} {answer : Answer}
    (hn : (desk.openOrders.toList ++ (ms ++ [Move.finish index call answer]).filterMap Move.offered?).Nodup) :
    Stocked desk (ms ++ [.finish index call answer]) (p.settle index call answer) := by
  have hle := desk.draws.countP_heads_le p.started
  refine ⟨by simpa using hp.draws, ?_, ?_⟩
  · rw [begun_append, begun_finish, List.append_nil]
    exact hp.begun
  · rw [List.filterMap_append, offered_finish, ← List.append_assoc] at hn
    rw [List.filterMap_append, offered_finish, ← List.append_assoc, List.drop_append_of_le_length (by simp; omega),
      settle_started, ← hp.openOrders, settle_desk]
    obtain ⟨id, ho, hd⟩ | ⟨ho, hd⟩ := p.desk.settle_cases call answer
    · rw [ho, Option.toList_some] at hn
      have hnew : id ∉ p.desk.openOrders.toList := by
        rw [hp.openOrders]
        intro hm
        exact (List.nodup_append.mp hn).2.2 id (List.mem_of_mem_drop hm) id (List.mem_singleton_self id) rfl
      obtain ⟨-, o, hl, hr⟩ | ⟨hm, -⟩ := p.desk.register_cases id
      · rw [hd, hr, ho]
        exact hl
      · exact absurd hm hnew
    · rw [ho, Option.toList_none, List.append_nil]
      obtain hd | ⟨e, -, hd⟩ := hd <;> rw [hd]
      rfl

theorem step_stocked {desk : Desk} {p q : Phase} {ms : List Move} {m : Move} (h : Step p m q) (ht : p.task = .mixed)
    (hs : p.total ≤ desk.openOrders.toList.length) (hsound : p.Sound)
    (hn : (desk.openOrders.toList ++ (ms ++ [m]).filterMap Move.offered?).Nodup) (hp : Stocked desk ms p) :
    Stocked desk (ms ++ [m]) q := by
  obtain ⟨time, e, rfl, hlt, -, hb, rfl⟩ | ⟨time, call, e, rfl, hlt, -, hb, rfl⟩ |
    ⟨index, call, answer, rfl, -, rfl⟩ := step_cases h
  · obtain ⟨-, hk, -⟩ := hp.start (Nat.lt_of_lt_of_le hlt hs) (ht ▸ hb)
    cases hk
  · obtain ⟨hd, hk, ho⟩ := hp.start (Nat.lt_of_lt_of_le hlt hs) (ht ▸ hb)
    refine ⟨hd, ?_, ?_⟩
    · rw [begun_append, begun_start, List.map_append, hp.begun, List.map_singleton, hk, send_started,
        List.range_succ, List.map_append]
      rfl
    · rw [List.filterMap_append, offered_start, List.append_nil]
      exact ho
  · exact hp.settle (Nat.le_trans hsound.started_le hs) hn

theorem run_stocked (h : Run (opening desk .mixed total permits) ms p) (hs : total ≤ desk.openOrders.toList.length)
    (hn : (desk.openOrders.toList ++ ms.filterMap Move.offered?).Nodup) : Stocked desk ms p := by
  induction h with
  | nil => exact opening_stocked desk total permits
  | @snoc ms m q r hr hstep ih =>
      have hprefix : (desk.openOrders.toList ++ ms.filterMap Move.offered?).Nodup := by
        rw [List.filterMap_append, ← List.append_assoc] at hn
        exact (List.nodup_append.mp hn).1
      exact step_stocked hstep (run_task hr).1 (run_total hr ▸ hs) (run_opening_sound hr) hn (ih hprefix)

theorem run_stocked_kinds (h : Run (opening desk .mixed total permits) ms p) (he : p.Ended) (hp : Stocked desk ms p) :
    p.results.map Attempt.kind = (List.range total).map desk.draws.kind := by
  have hk := congrArg (List.map (·.getD .cancel)) hp.begun
  rw [List.map_map, List.map_map, he.1, run_total h] at hk
  exact (run_result_kinds h he).trans hk

theorem run_stocked_cancels (h : Run (opening desk .mixed total permits) ms p) (he : p.Ended)
    (hp : Stocked desk ms p) :
    p.results.countP (·.kind = .cancel) = (List.range total).countP desk.draws.heads := by
  have hk := congrArg (List.countP (· = .cancel)) (run_stocked_kinds h he hp)
  rw [List.countP_map, List.countP_map] at hk
  refine hk.trans (List.countP_congr fun i _ => ?_)
  simp [Draws.kind]

end Phase

end OrderBench
