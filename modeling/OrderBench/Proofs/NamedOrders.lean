import OrderBench.Proofs.OrderUrls
import OrderBench.Proofs.Conservation

/-!
No cancel goes out without an order id. The ids come from the text of a response, from whoever asks for a
cancel, or from the open orders; at a desk that opened with none of these, every id that is open and every
id that was sent to be cancelled names an order, whoever shares the desk.
-/
namespace OrderBench

/-! The ids in responses. -/

namespace Number

theorem doubleText_ne_empty (x : Binary64) : doubleText x ≠ "" := by
  unfold doubleText
  generalize (if x.isNegative then "-" else "") = sign
  dsimp only
  split
  · simp
  · split
    · simp
    · split <;> simp

theorem text_ne_empty (n : Number) : n.text ≠ "" := by
  cases n with
  | double x => exact doubleText_ne_empty x
  | integer n =>
      cases n with
      | ofNat n =>
          intro h
          have hd : (Nat.repr n).toList = [] := by
            have : (text (.integer (.ofNat n))) = Nat.repr n := rfl
            rw [← this, h]
            rfl
          rw [Nat.toList_repr] at hd
          exact Nat.toDigits_ne_nil hd
      | negSucc n =>
          intro h
          simp [text, toString, Int.repr] at h

end Number

theorem orderIdOf_ne_empty {value : Option Json} {id : String} (h : orderIdOf value = some id) : id ≠ "" := by
  unfold orderIdOf at h
  split at h
  · split at h
    · cases h
    · cases h
      exact Number.text_ne_empty _
  · split at h
    · cases h
    · next hs =>
      cases h
      simpa using hs
  · cases h

theorem orderId_ne_empty {body id : String} (h : orderId body = .ok (some id)) : id ≠ "" := by
  unfold orderId at h
  split at h
  · next value _ =>
    cases value with
    | object members =>
        simp only [orderIdIn] at h
        split at h
        · cases h
        · exact orderIdOf_ne_empty (Except.ok.inj h)
        · cases h
    | _ => cases h
  · cases h

theorem Call.offer?_ne_empty {call : Call} {answer : Answer} {id : String} (h : call.offer? answer = some id) :
    id ≠ "" := by
  cases call with
  | cancel => cases h
  | place order =>
      simp only [offer?, attempt] at h
      cases ho : answer.outcome with
      | error e => simp [ho, Attempt.orderId?] at h
      | ok r =>
          refine orderId_ne_empty (?_ : orderId r.body = .ok (some id))
          simp only [ho, Attempt.orderId?, verdict] at h
          cases hr : r.isOk with
          | false => simp [hr, Desk.statusFailure] at h
          | true => cases hb : orderId r.body <;> simp_all

/-! A desk that is shared. -/

namespace Desk

/-- One step at a desk: a call is made up, as asked for or for a task of a run, an answer to a call is
settled, an open id is taken away, or the journal takes a remark. -/
inductive Use (d : Desk) : Desk → Prop
  | place (time : Nat) (side : Option Side) (price : Option Int64) : Use d (d.place time side price).2
  | cancel (time : Nat) (id : Option String) : Use d (d.cancel time id).2
  | begin {time : Nat} {task : Task} {call : Option Call} {e : Desk} (h : d.begin time task = (call, e)) : Use d e
  | settle (call : Call) (answer : Answer) : Use d (d.settle call answer).2
  | pop : Use d d.pop.2
  | note (e : Entry) (h : e.Aside) : Use d (d.note e)

/-- What a new desk can come to. The steps of its users come in any order, and no id is open but those that
its placements brought. -/
inductive Reachable (symbol : String) (draws : Draws) : Desk → Prop
  | opening : Reachable symbol draws { symbol, draws }
  | step {d e : Desk} : Reachable symbol draws d → Use d e → Reachable symbol draws e

structure Identified (d : Desk) : Prop where
  opened : ∀ id ∈ d.openOrders.toList, id ≠ ""
  cancelled : ∀ id ∈ d.journal.cancelled, id ≠ ""

variable {d e : Desk}

theorem opening_identified (symbol : String) (draws : Draws) : Identified { symbol, draws } where
  opened _ h := absurd h List.not_mem_nil
  cancelled _ h := absurd h List.not_mem_nil

theorem Identified.note (h : d.Identified) {e : Entry} (he : e.Aside) : (d.note e).Identified where
  opened := h.opened
  cancelled := by
    rw [note_journal, Journal.cancelled_aside he]
    exact h.cancelled

theorem Identified.call (h : d.Identified) {call : Call} (hc : call.cancels? ≠ some "") (time : Nat) :
    (d.note (.called time call)).Identified where
  opened := h.opened
  cancelled := by
    rw [note_journal, Journal.cancelled_cons]
    intro id hm
    rw [List.mem_append] at hm
    obtain hm | hm := hm
    · exact h.cancelled id hm
    · rintro rfl
      exact hc (by simpa [Entry.call?] using hm)

theorem Identified.register (h : d.Identified) {id : String} (hid : id ≠ "") : (d.register id).Identified := by
  obtain ⟨-, o, ho, he⟩ | ⟨-, he⟩ := d.register_cases id
  · rw [he]
    refine ⟨?_, ?_⟩
    · intro other hm
      rw [ho, List.mem_append, List.mem_singleton] at hm
      obtain hm | rfl := hm
      · exact h.opened other hm
      · exact hid
    · simpa [Entry.call?] using h.cancelled
  · rw [he]
    exact ⟨h.opened, by simpa [Entry.call?] using h.cancelled⟩

theorem Identified.draw (h : d.Identified) (draws : Draws) : Identified { d with draws } := ⟨h.opened, h.cancelled⟩

theorem Identified.taken (h : d.Identified) {id : String} {o : OpenOrders}
    (ht : d.openOrders.take? = some (id, o)) :
    id ≠ "" ∧ ({ d with openOrders := o }.note (.taken id)).Identified := by
  have hl := OpenOrders.toList_of_take? ht
  refine ⟨h.opened id (by simp [hl]), fun other hm => h.opened other ?_, ?_⟩
  · rw [hl]
    exact List.mem_cons_of_mem _ hm
  · simpa [Entry.call?] using h.cancelled

theorem Identified.pop (h : d.Identified) : d.pop.2.Identified := by
  unfold Desk.pop
  split
  · next ht => exact (h.taken ht).2
  · exact h

theorem Identified.take (h : d.Identified) {id : String} {o : OpenOrders}
    (ht : d.openOrders.take? = some (id, o)) (time : Nat) :
    Identified { d with openOrders := o, journal := .called time (.cancel id) :: .taken id :: d.journal } := by
  obtain ⟨hid, htaken⟩ := h.taken ht
  exact htaken.call (by simpa [Call.cancels?] using hid) time

theorem Identified.place (h : d.Identified) (time : Nat) (side : Option Side) (price : Option Int64) :
    (d.place time side price).2.Identified :=
  (h.draw (d.draft side price).2.draws).call (by simp [Call.cancels?]) time

theorem Identified.cancel (h : d.Identified) (time : Nat) (id : Option String) : (d.cancel time id).2.Identified := by
  unfold Desk.cancel
  split
  · next other ho =>
    -- an id that is given and empty is passed over
    rw [Option.filter_eq_some_iff] at ho
    exact h.call (by simpa [Call.cancels?] using ho.2) time
  · split
    · next ht => exact h.take ht time
    · exact h

theorem Identified.begin (h : d.Identified) {time : Nat} {task : Task} {call : Option Call}
    (hb : d.begin time task = (call, e)) : e.Identified := by
  obtain ⟨order, draws, -, -, rfl⟩ | ⟨id, o, draws, -, -, ht, rfl⟩ | ⟨-, -, -, rfl⟩ := begin_cases hb
  · exact (h.draw draws).call (by simp [Call.cancels?]) time
  · exact (h.draw draws).take ht time
  · exact h

theorem Identified.settle (h : d.Identified) (call : Call) (answer : Answer) :
    (d.settle call answer).2.Identified := by
  obtain ⟨id, ho, he⟩ | ⟨-, he | ⟨e, ha, he⟩⟩ := d.settle_cases call answer
  · rw [he]
    exact h.register (Call.offer?_ne_empty ho)
  · rwa [he]
  · rw [he]
    exact h.note ha

theorem use_identified (hu : Use d e) (h : d.Identified) : e.Identified := by
  cases hu with
  | place time side price => exact h.place time side price
  | cancel time id => exact h.cancel time id
  | begin hb => exact h.begin hb
  | settle call answer => exact h.settle call answer
  | pop => exact h.pop
  | note _ he => exact h.note he

theorem reachable_identified {symbol : String} {draws : Draws} (h : Reachable symbol draws d) : d.Identified := by
  induction h with
  | opening => exact opening_identified symbol draws
  | step _ hu ih => exact use_identified hu ih

end Desk

/-! Runs of a driver, and single requests of a session, are made of such steps. -/

section
variable {symbol : String} {draws : Draws}

theorem Phase.step_reachable {p q : Phase} {m : Phase.Move} (h : Phase.Step p m q)
    (hp : p.desk.Reachable symbol draws) : q.desk.Reachable symbol draws := by
  obtain ⟨time, call, -, hb⟩ | ⟨_, call, answer, -, hd⟩ := Phase.step_desk h
  · exact hp.step (.begin hb)
  · exact hd ▸ hp.step (.settle call answer)

theorem Driver.step_reachable {d e : Driver} {m : Option Phase.Move} (h : Step d m e)
    (hd : d.desk.Reachable symbol draws) : e.desk.Reachable symbol draws := by
  cases h with
  | begin => exact hd
  | warmUp => exact hd.step (.note _ trivial)
  | warming h => exact Phase.step_reachable h hd
  | warm => exact hd.step (.note _ trivial)
  | measuring h => exact Phase.step_reachable h hd
  | finish => exact hd.step (.note _ trivial)

theorem Driver.history_reachable {d e : Driver} {ms : List Phase.Move} (h : History d ms e)
    (hd : d.desk.Reachable symbol draws) : e.desk.Reachable symbol draws := by
  induction h with
  | nil => exact hd
  | snoc _ hs ih => exact step_reachable hs ih

namespace Session

inductive Request
  | place (side : Option Side) (price : Option Int64)
  | cancel (id : Option String)
  | run (workload : Workload) (total : Nat)

/-- A run whose warm-up cannot be counted leaves the session as it is. -/
def serve (s : Session) : Request → Session
  | .place side price => (s.place side price).2
  | .cancel id => (s.cancel id).2
  | .run workload total => match s.run workload total with
    | .ok (_, t) => t
    | .error _ => s

def serveAll (s : Session) (requests : List Request) : Session := requests.foldl serve s

variable {s : Session}

theorem await_reachable {desk : Desk} (h : desk.Reachable symbol draws) (call : Option Call) :
    (s.await call desk).2.desk.Reachable symbol draws := by
  cases call with
  | none => exact h
  | some call => exact h.step (.settle call _)

theorem serve_reachable (hpos : 0 < s.permits) (h : s.desk.Reachable symbol draws) (request : Request) :
    0 < (s.serve request).permits ∧ (s.serve request).desk.Reachable symbol draws := by
  cases request with
  | place side price => exact ⟨hpos, await_reachable (h.step (.place s.now side price)) _⟩
  | cancel id =>
      refine ⟨?_, await_reachable (h.step (.cancel s.now id)) _⟩
      simp only [serve, Session.cancel, await]
      split <;> exact hpos
  | run workload total =>
      simp only [serve]
      split
      · next r t hr =>
        obtain ⟨⟨ms, hm⟩, hp⟩ := s.run_history hpos hr
        exact ⟨hp ▸ hpos, Driver.history_reachable hm h⟩
      · exact ⟨hpos, h⟩

theorem serveAll_reachable (requests : List Request) (hpos : 0 < s.permits) (h : s.desk.Reachable symbol draws) :
    (s.serveAll requests).desk.Reachable symbol draws := by
  induction requests generalizing s with
  | nil => exact h
  | cons request requests ih =>
      obtain ⟨hp, hr⟩ := serve_reachable hpos h request
      exact ih hp hr

end Session

end

/-- However a new desk is shared by those who place, those who cancel and the runs of drivers, and whatever is
answered, every open id and every id in a cancel names an order. What deletes the collection itself is a cancel
with an id that its URL loses. -/
theorem every_cancel_names_an_order (symbol : String) (draws : Draws) :
    (∀ d : Desk, d.Reachable symbol draws → d.Identified ∧
      ∀ (e : Endpoint) (time : Nat) (call : Call) (r : HttpRequest), (time, call) ∈ d.journal.calls →
        e.request call = .ok r → (e.DeletesCollection r ↔ ∃ id, call = .cancel id ∧ e.LosesId id)) ∧
    (∀ (d : Desk) (permits : Nat) (ms : List Phase.Move) (e : Driver), d.Reachable symbol draws →
      Driver.History (.idle d permits) ms e → e.desk.Reachable symbol draws) ∧
    ∀ (s : Session) (requests : List Session.Request), s.desk = { symbol, draws } → 0 < s.permits →
      (s.serveAll requests).desk.Reachable symbol draws := by
  refine ⟨?_, ?_, ?_⟩
  · intro d h
    have hd := Desk.reachable_identified h
    refine ⟨hd, ?_⟩
    intro e time call r hm hr
    rw [Endpoint.deletesCollection_iff hr]
    refine exists_congr fun id => and_congr_right ?_
    rintro rfl
    exact or_iff_right (hd.cancelled id (List.mem_filterMap.mpr ⟨_, hm, rfl⟩))
  · intro d permits ms e hd h
    exact Driver.history_reachable h hd
  · intro s requests hs hpos
    exact Session.serveAll_reachable requests hpos (hs ▸ .opening)

/-- Cancels with the empty id, with an id and with none on a service that does not answer, and a placement
of a run after them. -/
theorem every_cancel_names_an_order_asked_for_none :
    let s : Session := {
      venue := fun number _ => ⟨number, .error (.timeout ⟨10, 0⟩)⟩
      permits := 2
      desk := { symbol := "BTCUSDT", draws := .cyclic #[] } }
    let t := s.serveAll [.cancel (some ""), .cancel (some "7"), .cancel none]
    t.desk.journal.cancelled = ["7"] ∧ t.desk.Identified ∧
      (∃ r, (Endpoint.opening "http://h/" 1).request (.cancel "7") = .ok r ∧
        ¬(Endpoint.opening "http://h/" 1).DeletesCollection r) ∧
      ∃ ms d, Driver.History (.idle t.desk t.permits) ms d ∧ d.inFlight.length = 1 ∧ d.desk.Identified := by
  intro s t
  obtain ⟨hall, hruns, hserved⟩ := every_cancel_names_an_order "BTCUSDT" (.cyclic #[])
  have ht : t.desk.Reachable "BTCUSDT" (.cyclic #[]) := hserved s _ rfl (by decide)
  obtain ⟨hidentified, hrequest⟩ := hall _ ht
  have hbegin : Driver.Step (.idle t.desk t.permits) none (.measuring .place
      (Driver.measured .place 2 none t.desk 2)) := .begin rfl
  have hstart : Phase.Step (Driver.measured .place 2 none t.desk 2) (.start 0 _) _ := .start rfl
  have h := (Driver.History.nil.silent hbegin).snoc (.measuring hstart)
  refine ⟨by decide, hidentified, ⟨_, rfl, ?_⟩, _, _, h, rfl, (hall _ (hruns _ _ _ _ ht h)).1⟩
  rw [hrequest _ 0 (.cancel "7") _ (by decide) rfl]
  rintro ⟨id, ⟨⟩, hid⟩
  revert hid
  decide +kernel

/-- A cancel whose id begins as a fragment deletes the collection itself. -/
theorem fragment_deletes_collection :
    let s : Session := {
      venue := fun number _ => ⟨number, .ok ⟨200, ""⟩⟩
      permits := 1
      desk := { symbol := "BTCUSDT", draws := .cyclic #[] } }
    let t := s.serveAll [.cancel (some "#é")]
    let e := Endpoint.opening "http://localhost:8081" 1
    t.desk.Reachable "BTCUSDT" (.cyclic #[]) ∧ (0, .cancel "#é") ∈ t.desk.journal.calls ∧
      ∃ r, e.request (.cancel "#é") = .ok r ∧ r.line = "DELETE /api/orders/ HTTP/1.1" ∧ e.DeletesCollection r := by
  intro s t e
  let r : HttpRequest := ⟨"DELETE", ⟨some ("http", "localhost:8081"), "/api/orders/"⟩, [("userid", "1")], ""⟩
  have hr : e.request (.cancel "#é") = .ok r := by decide +kernel
  refine ⟨Session.serveAll_reachable _ (by decide) .opening, by decide, r, hr, by decide, ?_⟩
  rw [Endpoint.deletesCollection_iff hr]
  exact ⟨"#é", rfl, .inr (.inr (by decide))⟩

end OrderBench
