import OrderBench.Proofs.Tasks

/-!
Phases of cancels. Each task takes the oldest open order; the tasks after the last one find none, and no
answer changes what is open.
-/
namespace OrderBench

theorem Desk.settle_cancel_openOrders (d : Desk) (id : String) (answer : Answer) :
    (d.settle (.cancel id) answer).2.openOrders = d.openOrders := by
  obtain ⟨other, ho, -⟩ | ⟨-, hd | ⟨e, -, hd⟩⟩ := d.settle_cases (.cancel id) answer
  · cases ho
  · rw [hd]
  · rw [hd, note_openOrders]

/-- A task of cancels takes the oldest open order, if there is one. -/
theorem Desk.begin_cancel {d e : Desk} {time : Nat} {call : Option Call} (h : d.begin time .cancel = (call, e)) :
    call = d.openOrders.toList.head?.map Call.cancel ∧ e.openOrders.toList = d.openOrders.toList.tail := by
  obtain ⟨_, _, -, hne, -⟩ | ⟨id, o, draws, rfl, -, ht, rfl⟩ | ⟨rfl, -, ht, rfl⟩ := begin_cases h
  · exact absurd rfl hne
  · have hl := OpenOrders.toList_of_take? ht
    rw [hl]
    exact ⟨rfl, rfl⟩
  · rw [(OpenOrders.take?_eq_none_iff _).mp ht]
    exact ⟨rfl, rfl⟩

namespace Phase

/-- The calls of so many tasks that cancel the ids of a queue, the oldest first. -/
def cancels (queue : List String) (n : Nat) : List (Option Call) :=
  (List.range n).map fun i => queue[i]?.map Call.cancel

theorem cancels_getElem? {queue : List String} {n i : Nat} (hi : i < n) :
    (cancels queue n)[i]? = some (queue[i]?.map Call.cancel) := by
  rw [cancels, List.getElem?_map, List.getElem?_range hi]
  rfl

theorem cancels_calls (queue : List String) (n : Nat) :
    (cancels queue n).filterMap id = (queue.take n).map Call.cancel := by
  induction n with
  | zero => simp [cancels]
  | succ n ih =>
      have hone : (cancels queue (n + 1)).filterMap id = (cancels queue n).filterMap id ++
          (queue[n]?.map Call.cancel).toList := by
        rw [cancels, List.range_succ, List.map_append, List.filterMap_append, ← cancels]
        cases h : queue[n]? <;> simp [h]
      rw [hone, ih, List.take_add_one, List.map_append]
      cases queue[n]? <;> rfl

/-- A phase of cancels after some moves, from the open orders on that it began with. -/
structure Cancelling (queue : List String) (ms : List Move) (p : Phase) : Prop where
  openOrders : p.desk.openOrders.toList = queue.drop p.started
  begun : begun ms = cancels queue p.started

theorem Cancelling.start {queue : List String} {p : Phase} {ms : List Move} (hp : Cancelling queue ms p)
    {time : Nat} {call : Option Call} {desk : Desk} (h : p.desk.begin time .cancel = (call, desk)) :
    desk.openOrders.toList = queue.drop (p.started + 1) ∧
      Phase.begun (ms ++ [.start time call]) = cancels queue (p.started + 1) := by
  obtain ⟨rfl, hl⟩ := Desk.begin_cancel h
  rw [hl, hp.openOrders, List.tail_drop, begun_append, begun_start, hp.begun, List.head?_drop, cancels, cancels,
    List.range_succ, List.map_append]
  exact ⟨rfl, rfl⟩

theorem step_cancelling {queue : List String} {p q : Phase} {ms : List Move} {m : Move} (h : Step p m q)
    (ht : p.task = .cancel) (htold : Told ms p) (hp : Cancelling queue ms p) : Cancelling queue (ms ++ [m]) q := by
  obtain ⟨time, desk, rfl, -, -, hb, rfl⟩ | ⟨time, call, desk, rfl, -, -, hb, rfl⟩ |
    ⟨index, call, answer, rfl, hl, rfl⟩ := step_cases h
  · obtain ⟨ho, hc⟩ := hp.start (ht ▸ hb)
    exact ⟨ho, hc⟩
  · obtain ⟨ho, hc⟩ := hp.start (ht ▸ hb)
    exact ⟨ho, hc⟩
  · -- only cancels are under way, and their answers register nothing
    obtain ⟨l₁, l₂, he, -⟩ := List.lookup_eq_some_iff.mp hl
    have hin := htold.inFlight index call (by simp [he])
    rw [hp.begun, cancels, List.getElem?_map, Option.map_eq_some_iff] at hin
    obtain ⟨i, -, hi⟩ := hin
    obtain ⟨id, -, rfl⟩ := Option.map_eq_some_iff.mp hi
    refine ⟨?_, ?_⟩
    · rw [settle_desk, Desk.settle_cancel_openOrders]
      exact hp.openOrders
    · rw [begun_append, begun_finish, List.append_nil]
      exact hp.begun

variable {desk : Desk} {total permits : Nat} {ms : List Move} {p : Phase}

theorem run_cancelling (h : Run (opening desk .cancel total permits) ms p) :
    Cancelling desk.openOrders.toList ms p := by
  induction h with
  | nil => exact ⟨rfl, rfl⟩
  | snoc hr hs ih => exact step_cancelling hs (run_task hr).1 (run_told hr) ih

theorem run_cancels (h : Run (opening desk .cancel total permits) ms p) (he : p.Ended) :
    begun ms = cancels desk.openOrders.toList total := by
  rw [(run_cancelling h).begun, he.1, run_total h]

theorem run_cancel_openOrders (h : Run (opening desk .cancel total permits) ms p) (he : p.Ended) :
    p.desk.openOrders.toList = desk.openOrders.toList.drop total := by
  rw [(run_cancelling h).openOrders, he.1, run_total h]

theorem run_cancel_sent (h : Run (opening desk .cancel total permits) ms p) (he : p.Ended) {i : Nat} {id : String}
    (hi : i < total) (hid : desk.openOrders.toList[i]? = some id) :
    ∃ answer, Move.finish i (.cancel id) answer ∈ ms ∧ p.results[i]? = some ((Call.cancel id).attempt answer) := by
  have hb : (begun ms)[i]? = some (some (.cancel id)) := by
    rw [run_cancels h he, cancels_getElem? hi, hid]
    rfl
  obtain ⟨answer, hm⟩ := run_answered h he hb
  exact ⟨answer, hm, run_result_finished h he hm⟩

theorem run_cancel_idle (h : Run (opening desk .cancel total permits) ms p) (he : p.Ended) {i : Nat}
    (hi : i < total) (hid : desk.openOrders.toList[i]? = none) : p.results[i]? = some .nothingToCancel := by
  apply run_result_skipped h he
  rw [run_cancels h he, cancels_getElem? hi, hid]
  rfl

theorem run_cancel_kind (h : Run (opening desk .cancel total permits) ms p) (he : p.Ended) {a : Attempt}
    (ha : a ∈ p.results) : a.kind = .cancel := by
  have hk := List.mem_map_of_mem (f := Attempt.kind) ha
  rw [run_result_kinds h he, run_cancels h he, cancels, List.map_map] at hk
  obtain ⟨i, -, hk⟩ := List.mem_map.mp hk
  cases hid : desk.openOrders.toList[i]? <;> simp [hid, ← hk, Call.kind]

end Phase

end OrderBench
