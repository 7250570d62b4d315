import OrderBench.Proofs.Lists
import OrderBench.Proofs.Tasks
import Mathlib.Data.List.Perm.Subperm

/-!
Phases of placements. The orders are drafted one after the other from the draws alone. The ids that the
answers offer are queued as they come, each at its first time; those that are open already are refused.
-/
namespace OrderBench

def Draws.skip (d : Draws) (n : Nat) : Draws := { d with used := d.used + n }

namespace Desk

/-- The order that is drafted after so many others: each takes two draws. -/
def order (d : Desk) (k : Nat) : OrderRequest := ({ d with draws := d.draws.skip (2 * k) }.draft none none).1

def orders (d : Desk) (n : Nat) : List OrderRequest := (List.range n).map d.order

theorem orders_congr {d e : Desk} (hs : d.symbol = e.symbol)
    (hd : ∀ k, d.draws.source (d.draws.used + k) = e.draws.source (e.draws.used + k)) (n : Nat) :
    d.orders n = e.orders n := by
  have : d.order = e.order := by
    funext k
    simp only [order, draft, Draws.skip, Draws.coin, Draws.next, Nat.add_assoc, hs, hd]
  rw [orders, this, orders]

/-- An answer adds the id that it offers to the open orders, if it is new among them. -/
theorem settle_accepts (d : Desk) (call : Call) (answer : Answer) {seen : List String}
    (h : d.openOrders.toList = seen.eraseDups) :
    ∃ ids, (d.settle call answer).2.openOrders.toList = d.openOrders.toList ++ ids ∧
      (d.settle call answer).2.journal.registrations = d.journal.registrations ++ ids ∧
      d.openOrders.toList ++ ids = (seen ++ (call.offer? answer).toList).eraseDups := by
  obtain ⟨id, ho, hd⟩ | ⟨ho, hd⟩ := d.settle_cases call answer
  · have hmem : id ∈ d.openOrders.toList ↔ id ∈ seen := by rw [h, List.mem_eraseDups]
    rw [ho, Option.toList_some, eraseDups_concat, ← h, hd]
    obtain ⟨hn, o, hl, hr⟩ | ⟨hm, hr⟩ := d.register_cases id
    · exact ⟨[id], by simp only [hr, hl], by simp [hr, Entry.registered?], (if_neg (hmem.not.mp hn)).symm⟩
    · refine ⟨[], by simp [hr], by simp [hr, Entry.registered?], ?_⟩
      rw [if_pos (hmem.mp hm), List.append_nil]
  · refine ⟨[], ?_, ?_, by rw [ho, Option.toList_none, List.append_nil, List.append_nil, h]⟩
    · obtain hd | ⟨e, -, hd⟩ := hd <;> simp [hd]
    · obtain hd | ⟨e, he, hd⟩ := hd
      · simp [hd]
      · rw [hd, note_journal, Journal.registrations_aside he, List.append_nil]

end Desk

namespace Phase

/-- A phase of placements after some moves, from the desk on that it began with. -/
structure Placing (desk : Desk) (ms : List Move) (p : Phase) : Prop where
  symbol : p.desk.symbol = desk.symbol
  draws : p.desk.draws = desk.draws.skip (2 * p.started)
  begun : begun ms = (desk.orders p.started).map (some ∘ Call.place)
  openOrders : p.desk.openOrders.toList = (desk.openOrders.toList ++ ms.filterMap Move.offered?).eraseDups
  accepted : ∃ ids, p.desk.openOrders.toList = desk.openOrders.toList ++ ids ∧
    p.desk.journal.registrations = desk.journal.registrations ++ ids

theorem opening_placing (desk : Desk) (total permits : Nat) :
    Placing desk [] (opening desk .place total permits) where
  symbol := rfl
  draws := rfl
  begun := rfl
  openOrders := by
    have : desk.openOrders.toList.Nodup := desk.openOrders.nodup
    rw [List.filterMap_nil, List.append_nil, eraseDups_of_nodup this]
    rfl
  accepted := ⟨[], (List.append_nil _).symm, (List.append_nil _).symm⟩

/-- The next order is drafted; no id is offered. -/
theorem Placing.send {desk : Desk} {p : Phase} {ms : List Move} (hp : Placing desk ms p) {time : Nat} {call : Call}
    {e : Desk} (h : p.desk.begin time .place = (some call, e)) :
    Placing desk (ms ++ [.start time (some call)]) (p.send call e) := by
  rw [Desk.begin_place] at h
  cases h
  have horder : desk.order p.started = (p.desk.draft none none).1 := by
    simp only [Desk.order, Desk.draft, hp.symbol, hp.draws]
  refine ⟨hp.symbol, ?_, ?_, ?_, ?_⟩
  · have hdraws : (p.desk.draft none none).2.draws = p.desk.draws.skip 2 := rfl
    simp only [send_desk, hdraws, hp.draws]
    rfl
  · rw [begun_append, begun_start, hp.begun, send_started, Desk.orders, Desk.orders, List.range_succ, List.map_append,
      List.map_append, ← horder]
    rfl
  · rw [List.filterMap_append, offered_start, List.append_nil]
    exact hp.openOrders
  · obtain ⟨ids, ho, hr⟩ := hp.accepted
    exact ⟨ids, ho, by simpa [Entry.registered?] using hr⟩

theorem Placing.settle {desk : Desk} {p : Phase} {ms : List Move} (hp : Placing desk ms p) (index : Nat) (call : Call)
    (answer : Answer) : Placing desk (ms ++ [.finish index call answer]) (p.settle index call answer) := by
  obtain ⟨new, ho, hr, hl⟩ := p.desk.settle_accepts call answer hp.openOrders
  refine ⟨by simpa using hp.symbol, by simpa using hp.draws, ?_, ?_, ?_⟩
  · rw [begun_append, begun_finish, List.append_nil]
    exact hp.begun
  · rw [List.filterMap_append, ← List.append_assoc, offered_finish, ← hl]
    exact ho
  · obtain ⟨ids, hq, hr'⟩ := hp.accepted
    exact ⟨ids ++ new, by rw [← List.append_assoc, ← hq]; exact ho, by rw [← List.append_assoc, ← hr']; exact hr⟩

theorem step_placing {desk : Desk} {p q : Phase} {ms : List Move} {m : Move} (h : Step p m q)
    (ht : p.task = .place) (hp : Placing desk ms p) : Placing desk (ms ++ [m]) q := by
  obtain ⟨time, e, -, -, -, hb, -⟩ | ⟨time, call, e, rfl, -, -, hb, rfl⟩ | ⟨index, call, answer, rfl, -, rfl⟩ :=
    step_cases h
  · rw [ht, Desk.begin_place] at hb
    cases hb
  · exact hp.send (ht ▸ hb)
  · exact hp.settle index call answer

variable {desk : Desk} {total permits : Nat} {ms : List Move} {p : Phase}

theorem run_placing (h : Run (opening desk .place total permits) ms p) : Placing desk ms p := by
  induction h with
  | nil => exact opening_placing desk total permits
  | snoc hr hs ih => exact step_placing hs (run_task hr).1 ih

theorem run_placed (h : Run (opening desk .place total permits) ms p) (he : p.Ended) {i : Nat} (hi : i < total) :
    (begun ms)[i]? = some (some (.place (desk.order i))) := by
  have hp : p.started = total := he.1.trans (run_total h)
  rw [(run_placing h).begun, hp, Desk.orders, List.getElem?_map, List.getElem?_map, List.getElem?_range hi]
  rfl

theorem run_calls_place (h : Run (opening desk .place total permits) ms p) (he : p.Ended) :
    p.desk.journal.calls.map Prod.snd =
      desk.journal.calls.map Prod.snd ++ (desk.orders total).map Call.place := by
  have hp : p.started = total := he.1.trans (run_total h)
  rw [run_calls h, List.map_append, map_sent, (run_placing h).begun, hp, List.filterMap_map]
  exact congrArg _ (congrFun List.filterMap_eq_map _)

theorem run_place_kind (h : Run (opening desk .place total permits) ms p) (he : p.Ended) {a : Attempt}
    (ha : a ∈ p.results) : a.kind = .place := by
  have hk := List.mem_map_of_mem (f := Attempt.kind) ha
  rw [run_result_kinds h he, (run_placing h).begun, List.map_map] at hk
  obtain ⟨order, -, hk⟩ := List.mem_map.mp hk
  exact hk.symm

/-- The ids that placements got are offered, and no others. -/
theorem run_ids_perm (h : Run (opening desk .place total permits) ms p) (he : p.Ended) :
    (ms.filterMap Move.offered?).Perm (p.results.filterMap Attempt.orderId?) := by
  have hids : p.results.filterMap Attempt.offered? = p.results.filterMap Attempt.orderId? := by
    apply List.filterMap_congr
    intro a ha
    simp only [Attempt.offered?, run_place_kind h he ha]
  exact hids ▸ run_offers_perm h

theorem run_mem_openOrders (h : Run (opening desk .place total permits) ms p) (he : p.Ended) (id : String) :
    id ∈ p.desk.openOrders.toList ↔
      id ∈ desk.openOrders.toList ∨ id ∈ p.results.filterMap Attempt.orderId? := by
  rw [(run_placing h).openOrders, List.mem_eraseDups, List.mem_append, (run_ids_perm h he).mem_iff]

theorem run_size_le (h : Run (opening desk .place total permits) ms p) (he : p.Ended) :
    p.desk.openOrders.size ≤ desk.openOrders.size + (p.results.filterMap Attempt.orderId?).length := by
  have hsub : p.desk.openOrders.toList ⊆ desk.openOrders.toList ++ p.results.filterMap Attempt.orderId? := by
    intro id hid
    exact List.mem_append.mpr ((run_mem_openOrders h he id).mp hid)
  rw [OpenOrders.size_eq_length, OpenOrders.size_eq_length, ← List.length_append]
  exact (List.Nodup.subperm p.desk.openOrders.nodup hsub).length_le

/-- Each id of the results is a new open order, or there is a warning of it. -/
theorem run_warnings (h : Run (opening desk .place total permits) ms p) (he : p.Ended) :
    p.desk.journal.warnings.length + p.desk.openOrders.size =
      desk.journal.warnings.length + desk.openOrders.size + (p.results.filterMap Attempt.orderId?).length := by
  have hoff := congrArg List.length (run_offers h)
  obtain ⟨ids, ho, hr⟩ := (run_placing h).accepted
  rw [List.length_append, (run_ids_perm h he).length_eq, Journal.length_offers, hr, List.length_append] at hoff
  have hdesk : (opening desk .place total permits).desk.journal.offers.length =
      desk.journal.registrations.length + desk.journal.refusals.length := Journal.length_offers _
  rw [Journal.warnings_eq, Journal.warnings_eq, List.length_map, List.length_map, OpenOrders.size_eq_length,
    OpenOrders.size_eq_length, ho, List.length_append]
  omega

end Phase

end OrderBench
