import OrderBench.Proofs.Session

/-!
No order id is lost and none is cancelled out of turn. Whatever runs a driver makes, and in whatever
order their calls end, the ids that were accepted are those that were sent in cancels, in that order,
followed by those that are open.
-/
namespace OrderBench

namespace Desk

/-- The journal of a desk agrees with its open orders. -/
structure Conserved (d : Desk) : Prop where
  balance : d.journal.registrations = d.journal.cancelled ++ d.openOrders.toList
  awaits : ∀ id, d.journal.Awaits id ↔ id ∈ d.openOrders.toList
  orderly : d.journal.Orderly

variable {d : Desk}

theorem Conserved.note (h : d.Conserved) {e : Entry} (he : e.Aside) : (d.note e).Conserved where
  balance := by
    rw [note_journal, Journal.registrations_aside he, Journal.cancelled_aside he]
    exact h.balance
  awaits id := by
    rw [note_journal, Journal.awaits_aside he]
    exact h.awaits id
  orderly := (Journal.orderly_aside he).mpr h.orderly

theorem Conserved.register (h : d.Conserved) (id : String) : (d.register id).Conserved := by
  obtain ⟨hn, o, ho, he⟩ | ⟨hm, he⟩ := d.register_cases id
  · rw [he]
    refine ⟨?_, ?_, ?_⟩
    · simp [Entry.registered?, Entry.call?, h.balance, ho]
    · intro other
      simp only [Journal.Awaits, h.awaits, ho, List.mem_append, List.mem_singleton]
      rw [or_comm, eq_comm]
    · exact ⟨(h.awaits id).not.mpr hn, h.orderly⟩
  · rw [he]
    refine ⟨?_, h.awaits, (h.awaits id).mpr hm, h.orderly⟩
    simpa [Entry.registered?, Entry.call?] using h.balance

theorem Conserved.settle (h : d.Conserved) (call : Call) (answer : Answer) :
    (d.settle call answer).2.Conserved := by
  obtain ⟨id, -, he⟩ | ⟨-, he | ⟨e, ha, he⟩⟩ := d.settle_cases call answer
  · exact he ▸ h.register id
  · rwa [he]
  · exact he ▸ h.note ha

theorem Conserved.begin (h : d.Conserved) {time : Nat} {task : Task} {call : Option Call} {e : Desk}
    (hb : d.begin time task = (call, e)) : e.Conserved := by
  obtain ⟨order, draws, -, -, rfl⟩ | ⟨id, o, draws, -, -, ht, rfl⟩ | ⟨-, -, -, rfl⟩ := begin_cases hb
  · refine ⟨?_, h.awaits, h.orderly⟩
    simpa [Entry.registered?, Entry.call?, Call.cancels?] using h.balance
  · -- the oldest id is taken: it stood at the head of the queue, and only there
    have hl := OpenOrders.toList_of_take? ht
    have hn := d.openOrders.nodup
    change d.openOrders.toList.Nodup at hn
    rw [hl, List.nodup_cons] at hn
    refine ⟨?_, ?_, ?_⟩
    · simp [Entry.registered?, Entry.call?, Call.cancels?, h.balance, hl]
    · intro other
      simp only [Journal.Awaits, h.awaits, hl, List.mem_cons]
      constructor
      · rintro ⟨hne, rfl | hm⟩
        · exact absurd rfl hne
        · exact hm
      · intro hm
        exact ⟨fun he => hn.1 (he ▸ hm), .inr hm⟩
    · exact ⟨(h.awaits id).mpr (by simp [hl]), h.orderly⟩
  · exact h

/-- A desk with nothing but ids offered to it one after the other. -/
def seeded (symbol : String) (draws : Draws) (ids : List String) : Desk :=
  ids.foldl register { symbol, draws }

theorem seeded_conserved (symbol : String) (draws : Draws) (ids : List String) :
    (seeded symbol draws ids).Conserved := by
  have hall (d : Desk) (h : d.Conserved) : (ids.foldl register d).Conserved := by
    induction ids generalizing d with
    | nil => exact h
    | cons id ids ih => exact ih _ (h.register id)
  exact hall _ ⟨rfl, fun id => by simp [Journal.Awaits, OpenOrders.toList, OpenOrders.empty], trivial⟩

theorem foldl_register_journal (ids : List String) (d : Desk) :
    (ids.foldl register d).journal.offers = d.journal.offers ++ ids ∧
      (ids.foldl register d).journal.calls = d.journal.calls := by
  induction ids generalizing d with
  | nil => simp
  | cons id ids ih =>
      obtain ⟨ho, hc⟩ := ih (d.register id)
      rw [List.foldl_cons, ho, hc, register_offers, register_calls, List.append_assoc]
      exact ⟨rfl, rfl⟩

end Desk

theorem Phase.step_conserved {p q : Phase} {m : Phase.Move} (h : Phase.Step p m q) (hp : p.desk.Conserved) :
    q.desk.Conserved := by
  obtain ⟨time, call, -, hb⟩ | ⟨_, call, answer, -, hd⟩ := Phase.step_desk h
  · exact hp.begin hb
  · exact hd ▸ hp.settle call answer

namespace Driver

theorem step_conserved {d e : Driver} {m : Option Phase.Move} (h : Step d m e) (hd : d.desk.Conserved) :
    e.desk.Conserved := by
  cases h with
  | begin => exact hd
  | warmUp => exact hd.note trivial
  | warming h => exact Phase.step_conserved h hd
  | warm => exact hd.note trivial
  | measuring h => exact Phase.step_conserved h hd
  | finish => exact hd.note trivial

theorem history_conserved {d e : Driver} {ms : List Phase.Move} (h : History d ms e) (hd : d.desk.Conserved) :
    e.desk.Conserved := by
  induction h with
  | nil => exact hd
  | snoc _ hs ih => exact step_conserved hs ih

theorem step_journal {d e : Driver} {m : Option Phase.Move} (h : Step d m e) :
    e.desk.journal.offers = d.desk.journal.offers ++ (m.bind Phase.Move.offered?).toList ∧
      e.desk.journal.calls = d.desk.journal.calls ++ (m.bind Phase.Move.sent?).toList := by
  cases h with
  | warming h | measuring h => exact ⟨Phase.step_offers h, Phase.step_calls h⟩
  | begin => simp [desk, measured, Phase.opening]
  | warmUp | warm | finish =>
      simp [desk, Driver.warmUp, measured, Phase.opening, Entry.offered?, Entry.call?]

theorem history_journal {d e : Driver} {ms : List Phase.Move} (h : History d ms e) :
    e.desk.journal.offers = d.desk.journal.offers ++ ms.filterMap Phase.Move.offered? ∧
      e.desk.journal.calls = d.desk.journal.calls ++ ms.filterMap Phase.Move.sent? := by
  induction h with
  | nil => simp
  | @snoc ms m _ _ _ hs ih =>
      rw [(step_journal hs).1, (step_journal hs).2, ih.1, ih.2]
      cases m with
      | none => simp
      | some m => cases ho : m.offered? <;> cases hs : m.sent? <;> simp [ho, hs]

/-- The ids that were pushed, accepted, sent to be cancelled and left open, from the ids that a driver was
seeded with to the state after some moves. -/
structure IdsConserved (ids : List String) (ms : List Phase.Move) (d : Driver) : Prop where
  /-- What was pushed are the seeds and then the ids of the successful placements, as they ended. -/
  pushed : d.desk.journal.offers = ids ++ ms.filterMap Phase.Move.offered?
  accepted : d.desk.journal.registrations.Sublist (ids ++ ms.filterMap Phase.Move.offered?)
  /-- What was accepted was sent to be cancelled, in the same order, or is open. -/
  balance : d.desk.journal.registrations = ms.filterMap Phase.Move.cancels? ++ d.desk.openOrders.toList
  nodup : d.desk.openOrders.toList.Nodup
  /-- A push is refused just when its id is open, and only an open id is sent to be cancelled. -/
  orderly : d.desk.journal.Orderly
  accepted_before_cancel : ∀ (newer older : Journal) (time : Nat) (id : String),
    d.desk.journal = newer ++ .called time (.cancel id) :: older → .registered id ∈ older
  accepted_between_cancels : ∀ (newer between older : Journal) (time time' : Nat) (id : String),
    d.desk.journal = newer ++ .called time' (.cancel id) :: (between ++ .called time (.cancel id) :: older) →
      .registered id ∈ between

theorem history_idsConserved {symbol : String} {draws : Draws} {ids : List String} {permits : Nat}
    {ms : List Phase.Move} {d : Driver} (h : History (.idle (.seeded symbol draws ids) permits) ms d) :
    IdsConserved ids ms d := by
  obtain ⟨balance, -, orderly⟩ := history_conserved h (Desk.seeded_conserved symbol draws ids)
  obtain ⟨offers, calls⟩ := Desk.foldl_register_journal ids { symbol, draws }
  obtain ⟨hoffers, hcalls⟩ := history_journal h
  have hpushed : d.desk.journal.offers = ids ++ ms.filterMap Phase.Move.offered? :=
    hoffers.trans (congrArg (· ++ _) offers)
  refine ⟨hpushed, ?_, ?_, d.desk.openOrders.nodup, orderly, ?_, ?_⟩
  · rw [← hpushed]
    exact d.desk.journal.registrations_sublist
  · have hsent : d.desk.journal.calls = ms.filterMap Phase.Move.sent? :=
      hcalls.trans (congrArg (· ++ _) calls)
    rw [balance, Journal.cancelled, hsent, List.filterMap_filterMap]
    rfl
  · intro newer older time id hj
    rw [hj] at orderly
    exact Journal.registered_of_awaits (Journal.orderly_of_append orderly).1
  · intro newer between older time time' id hj
    rw [hj] at orderly
    exact Journal.registered_since (Journal.orderly_of_append orderly).1

/-- Order ids are conserved first in, first out, at every state of every history of a driver with seeds, and
so where any runs of a session have come to an end. -/
theorem order_ids_conserved (symbol : String) (draws : Draws) (ids : List String) :
    (∀ (permits : Nat) (ms : List Phase.Move) (d : Driver),
      History (.idle (.seeded symbol draws ids) permits) ms d → IdsConserved ids ms d) ∧
    ∀ (s t : Session) (runs : List (Workload × Nat)), s.desk = .seeded symbol draws ids → 0 < s.permits →
      s.runAll runs = .ok t →
        ∃ ms, History (.idle (.seeded symbol draws ids) s.permits) ms (.idle t.desk t.permits) ∧
          IdsConserved ids ms (.idle t.desk t.permits) := by
  refine ⟨fun _ _ _ => history_idsConserved, ?_⟩
  intro s t runs hs hpos h
  obtain ⟨⟨ms, hm⟩, -⟩ := Session.runAll_history hpos h
  rw [hs] at hm
  exact ⟨ms, hm, history_idsConserved hm⟩

/-- A placement is under way over the seeds `7` and `8`; two runs on a service that gives the id `7` to
every placement. -/
theorem order_ids_conserved_over_repeated_id :
    (∃ ms d, History (.idle (.seeded "BTCUSDT" (.cyclic #[]) ["7", "7", "8"]) 2) ms d ∧ d.inFlight.length = 1 ∧
      IdsConserved ["7", "7", "8"] ms d) ∧
    let s : Session := {
      venue := fun number _ => ⟨number, .ok ⟨200, "\x7b\"data\":\x7b\"orderId\":7\x7d\x7d"⟩⟩
      permits := 2
      desk := .seeded "BTCUSDT" (.cyclic #[]) ["7", "7", "8"] }
    ∃ t ms, s.runAll [(.cancel, 3), (.both, 2)] = .ok t ∧ IdsConserved ["7", "7", "8"] ms (.idle t.desk t.permits) := by
  let desk : Desk := .seeded "BTCUSDT" (.cyclic #[]) ["7", "7", "8"]
  have hbegin : Step (.idle desk 2) none (.measuring .place (measured .place 2 none desk 2)) := .begin rfl
  have hstart : Phase.Step (measured .place 2 none desk 2) (.start 0 _) _ := .start rfl
  have h := (History.nil.silent hbegin).snoc (.measuring hstart)
  refine ⟨⟨_, _, h, rfl, (order_ids_conserved _ _ _).1 _ _ _ h⟩, ?_⟩
  intro s
  have hruns : ∀ run ∈ [(Workload.cancel, 3), (Workload.both, 2)],
      ∃ count, run.1.warmupCount run.2 = .ok count := by
    simp only [List.mem_cons, List.not_mem_nil, or_false, forall_eq_or_imp, forall_eq]
    exact ⟨⟨_, rfl⟩, ⟨_, rfl⟩⟩
  obtain ⟨t, ht⟩ := s.runAll_ok (by decide) hruns
  obtain ⟨ms, -, hm⟩ := (order_ids_conserved _ _ _).2 s t _ rfl (by decide) ht
  exact ⟨t, ms, ht, hm⟩

end Driver

end OrderBench
