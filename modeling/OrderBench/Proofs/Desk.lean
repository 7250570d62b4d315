import OrderBench.Desk
import OrderBench.Proofs.Journal

/-!
What the steps of a desk do. The attempt that an answer makes depends on the call and the answer alone;
on the desk an answer leaves nothing but the id that it offers, or a remark in the journal.
-/
namespace OrderBench

theorem Attempt.error?_eq_some {a : Attempt} {text : String} : a.error? = some text ↔ a.verdict = .failure text := by
  unfold error?
  cases a.verdict <;> simp

/-- The id that an attempt to place an order brought. -/
def Attempt.offered? (a : Attempt) : Option String :=
  match a.kind with
  | .place => a.orderId?
  | .cancel => none

namespace Call

/-- The verdict on a response. It does not depend on the order that was placed. -/
def verdict (r : Response) : Call → Verdict
  | .cancel id => if r.isOk then .success (some id) else Desk.statusFailure r
  | .place _ =>
    if r.isOk then match orderId r.body with
      | .ok id => .success id
      | .error _ => .failure ("failed to parse response: " ++ cutBody r.body)
    else Desk.statusFailure r

/-- The attempt that an answer makes of a call. -/
def attempt (answer : Answer) (call : Call) : Attempt :=
  let time := (Duration.ofNanos answer.latency).seconds
  match answer.outcome with
  | .error e => ⟨call.kind, 0, time, .failure (Desk.errorMessage e)⟩
  | .ok r => ⟨call.kind, r.status, time, call.verdict r⟩

def offer? (answer : Answer) : Call → Option String
  | .cancel _ => none
  | .place order => ((Call.place order).attempt answer).orderId?

@[simp] theorem attempt_kind (call : Call) (answer : Answer) : (call.attempt answer).kind = call.kind := by
  unfold attempt
  cases answer.outcome <;> rfl

theorem attempt_time (call : Call) (answer : Answer) :
    (call.attempt answer).time = (Duration.ofNanos answer.latency).seconds := by
  unfold attempt
  cases answer.outcome <;> rfl

theorem attempt_offered (call : Call) (answer : Answer) :
    (call.attempt answer).offered? = call.offer? answer := by
  cases call <;> simp [Attempt.offered?, kind, offer?]

theorem verdict_failure {call : Call} {r : Response} {text : String} (h : call.verdict r = .failure text) :
    text.toList.head? = some 'H' ∨ text.toList.head? = some 'f' := by
  have hstatus (hf : Desk.statusFailure r = .failure text) : text.toList.head? = some 'H' := by
    cases hf
    simp [toString]
  cases call with
  | cancel id =>
      simp only [verdict] at h
      split at h
      · cases h
      · exact .inl (hstatus h)
  | place order =>
      simp only [verdict] at h
      split at h
      · split at h
        · cases h
        · cases h
          simp
      · exact .inl (hstatus h)

/-- What is said of a call that failed is never what is said of a cancel that made no call. -/
theorem attempt_error_ne (call : Call) (answer : Answer) :
    (call.attempt answer).error? ≠ some "no orders available to cancel" := by
  intro h
  rw [Attempt.error?_eq_some, attempt] at h
  cases ho : answer.outcome with
  | error e =>
      simp only [ho, Verdict.failure.injEq] at h
      cases e <;> simp [Desk.errorMessage, String.ext_iff] at h
  | ok r =>
      simp only [ho] at h
      have := verdict_failure h
      simp at this

end Call

namespace Desk

variable (d : Desk)

@[simp] theorem note_openOrders (e : Entry) : (d.note e).openOrders = d.openOrders := rfl

@[simp] theorem note_journal (e : Entry) : (d.note e).journal = e :: d.journal := rfl

@[simp] theorem note_draws (e : Entry) : (d.note e).draws = d.draws := rfl

@[simp] theorem note_symbol (e : Entry) : (d.note e).symbol = d.symbol := rfl

/-! Settling. -/

theorem settle_attempt (call : Call) (answer : Answer) : (d.settle call answer).1 = call.attempt answer := by
  unfold settle Call.attempt
  cases answer.outcome with
  | error e => rfl
  | ok r =>
      cases call with
      | cancel id => cases h : r.isOk <;> simp [judge, Call.verdict, h]
      | place order =>
          cases h : r.isOk with
          | false => simp [judge, Call.verdict, h]
          | true => rcases hb : orderId r.body with _ | _ | id <;> simp [judge, Call.verdict, h, hb]

/-- An answer offers an id, or has at most a remark as its effect. -/
theorem settle_cases (call : Call) (answer : Answer) :
    (∃ id, call.offer? answer = some id ∧ (d.settle call answer).2 = d.register id) ∨
      call.offer? answer = none ∧
        ((d.settle call answer).2 = d ∨ ∃ e : Entry, e.Aside ∧ (d.settle call answer).2 = d.note e) := by
  unfold settle
  cases ho : answer.outcome with
  | error e =>
      refine .inr ⟨?_, .inr ⟨.failed call.kind e, trivial, rfl⟩⟩
      cases call with
      | cancel id => rfl
      | place order => simp [Call.offer?, Call.attempt, ho, Attempt.orderId?]
  | ok r =>
      cases call with
      | cancel id => refine .inr ⟨rfl, .inl ?_⟩; cases h : r.isOk <;> simp [judge, h]
      | place order =>
          have hoff : (Call.place order).offer? answer =
              (⟨.place, r.status, (Duration.ofNanos answer.latency).seconds,
                (Call.place order).verdict r⟩ : Attempt).orderId? := by
            simp only [Call.offer?, Call.attempt, ho, Call.kind]
          rw [hoff]
          cases h : r.isOk with
          | false => exact .inr ⟨by simp [Call.verdict, h, statusFailure, Attempt.orderId?], .inl (by simp [judge, h])⟩
          | true =>
              rcases hb : orderId r.body with fault | _ | id
              · exact .inr ⟨by simp [Call.verdict, h, hb, Attempt.orderId?],
                  .inr ⟨.unreadable fault, trivial, by simp [judge, h, hb]⟩⟩
              · exact .inr ⟨by simp [Call.verdict, h, hb, Attempt.orderId?], .inl (by simp [judge, h, hb])⟩
              · exact .inl ⟨id, by simp [Call.verdict, h, hb, Attempt.orderId?], by simp [judge, h, hb]⟩

/-- An id is accepted at the end of the queue, or it is open already and refused. -/
theorem register_cases (id : String) :
    (id ∉ d.openOrders.toList ∧ ∃ o : OpenOrders, o.toList = d.openOrders.toList ++ [id] ∧
        d.register id = { d with openOrders := o, journal := .registered id :: d.journal }) ∨
      id ∈ d.openOrders.toList ∧ d.register id = d.note (.refused id) := by
  unfold register
  cases h : d.openOrders.register? id with
  | none => exact .inr ⟨(d.openOrders.register?_eq_none_iff).mp h, rfl⟩
  | some o =>
      refine .inl ⟨?_, o, OpenOrders.toList_of_register? h, rfl⟩
      intro hm
      rw [(d.openOrders.register?_eq_none_iff).mpr hm] at h
      cases h

@[simp] theorem register_symbol (id : String) : (d.register id).symbol = d.symbol := by
  unfold register
  cases d.openOrders.register? id <;> rfl

@[simp] theorem register_draws (id : String) : (d.register id).draws = d.draws := by
  unfold register
  cases d.openOrders.register? id <;> rfl

theorem register_calls (id : String) : (d.register id).journal.calls = d.journal.calls := by
  obtain ⟨-, o, -, h⟩ | ⟨-, h⟩ := d.register_cases id <;> simp [h, Entry.call?]

theorem register_offers (id : String) : (d.register id).journal.offers = d.journal.offers ++ [id] := by
  obtain ⟨-, o, -, h⟩ | ⟨-, h⟩ := d.register_cases id <;> simp [h, Entry.offered?]

@[simp] theorem settle_symbol (call : Call) (answer : Answer) : (d.settle call answer).2.symbol = d.symbol := by
  obtain ⟨id, -, h⟩ | ⟨-, h | ⟨e, -, h⟩⟩ := d.settle_cases call answer <;> simp [h]

@[simp] theorem settle_draws (call : Call) (answer : Answer) : (d.settle call answer).2.draws = d.draws := by
  obtain ⟨id, -, h⟩ | ⟨-, h | ⟨e, -, h⟩⟩ := d.settle_cases call answer <;> simp [h]

theorem settle_calls (call : Call) (answer : Answer) :
    (d.settle call answer).2.journal.calls = d.journal.calls := by
  obtain ⟨id, -, h⟩ | ⟨-, h | ⟨e, he, h⟩⟩ := d.settle_cases call answer
  · rw [h, register_calls]
  · rw [h]
  · rw [h, note_journal, Journal.calls_aside he]

theorem settle_offers (call : Call) (answer : Answer) :
    (d.settle call answer).2.journal.offers = d.journal.offers ++ (call.offer? answer).toList := by
  obtain ⟨id, ho, h⟩ | ⟨ho, h | ⟨e, he, h⟩⟩ := d.settle_cases call answer
  · rw [h, register_offers, ho, Option.toList_some]
  · rw [h, ho, Option.toList_none, List.append_nil]
  · rw [h, ho, note_journal, Journal.offers_aside he, Option.toList_none, List.append_nil]

/-! Beginning. -/

theorem begin_place (time : Nat) :
    d.begin time .place = (some (.place (d.draft none none).1),
      { d with
        draws := (d.draft none none).2.draws
        journal := .called time (.place (d.draft none none).1) :: d.journal }) := rfl

theorem cancel_none (time : Nat) (h : d.openOrders.take? = none) : d.cancel time none = (none, d) := by
  simp [cancel, h]

theorem cancel_some (time : Nat) {id : String} {o : OpenOrders} (h : d.openOrders.take? = some (id, o)) :
    d.cancel time none = (some (.cancel id),
      { d with openOrders := o, journal := .called time (.cancel id) :: .taken id :: d.journal }) := by
  simp [cancel, h, note]

/-- All that a cancel can do up to its call. An id that is given and empty counts as none. -/
inductive Cancels (d : Desk) (time : Nat) : Option String → Option Call → Desk → Prop
  | given {id : String} (h : id ≠ "") :
      Cancels d time (some id) (some (.cancel id)) (d.note (.called time (.cancel id)))
  | oldest {id : Option String} {oldest : String} {o : OpenOrders} (hid : id = none ∨ id = some "")
      (h : d.openOrders.toList = oldest :: o.toList) :
      Cancels d time id (some (.cancel oldest))
        { d with openOrders := o, journal := .called time (.cancel oldest) :: .taken oldest :: d.journal }
  | idle {id : Option String} (hid : id = none ∨ id = some "") (h : d.openOrders.toList = []) :
      Cancels d time id none d

theorem cancels (time : Nat) (id : Option String) :
    d.Cancels time id (d.cancel time id).1 (d.cancel time id).2 := by
  have holdest (hid : id = none ∨ id = some "") :
      d.Cancels time id (d.cancel time none).1 (d.cancel time none).2 := by
    rcases ht : d.openOrders.take? with _ | ⟨oldest, o⟩
    · rw [d.cancel_none time ht]
      exact .idle hid ((d.openOrders.take?_eq_none_iff).mp ht)
    · rw [d.cancel_some time ht]
      exact .oldest hid (OpenOrders.toList_of_take? ht)
  cases id with
  | none => exact holdest (.inl rfl)
  | some given =>
      by_cases h : given = ""
      · subst h
        exact holdest (.inr rfl)
      · have he : d.cancel time (some given) = (some (.cancel given), d.note (.called time (.cancel given))) := by
          simp [cancel, Option.filter, h]
        rw [he]
        exact .given h

theorem begin_cases {d e : Desk} {time : Nat} {task : Task} {call : Option Call} (h : d.begin time task = (call, e)) :
    (∃ order draws, call = some (.place order) ∧ task ≠ .cancel ∧
        e = { d with draws, journal := .called time (.place order) :: d.journal }) ∨
      (∃ id o draws, call = some (.cancel id) ∧ task ≠ .place ∧ d.openOrders.take? = some (id, o) ∧
        e = { d with openOrders := o, draws, journal := .called time (.cancel id) :: .taken id :: d.journal }) ∨
      call = none ∧ task = .cancel ∧ d.openOrders.take? = none ∧ e = d := by
  cases task with
  | place =>
      rw [begin_place, Prod.mk.injEq] at h
      obtain ⟨rfl, rfl⟩ := h
      exact .inl ⟨_, _, rfl, nofun, rfl⟩
  | cancel =>
      cases ht : d.openOrders.take? with
      | none =>
          rw [begin, d.cancel_none time ht, Prod.mk.injEq] at h
          obtain ⟨rfl, rfl⟩ := h
          exact .inr (.inr ⟨rfl, rfl, rfl, rfl⟩)
      | some p =>
          rw [begin, d.cancel_some time ht, Prod.mk.injEq] at h
          obtain ⟨rfl, rfl⟩ := h
          exact .inr (.inl ⟨p.1, p.2, d.draws, rfl, nofun, rfl, rfl⟩)
  | mixed =>
      simp only [begin] at h
      split at h
      · next hc =>
          -- heads, and an order is open: the cancel cannot find the queue empty
          cases ht : d.openOrders.take? with
          | none =>
              rw [d.openOrders.take?_eq_none_iff, ← d.openOrders.isEmpty_iff] at ht
              simp [ht] at hc
          | some p =>
              rw [cancel_some { d with draws := d.draws.coin.2 } time ht, Prod.mk.injEq] at h
              obtain ⟨rfl, rfl⟩ := h
              exact .inr (.inl ⟨p.1, p.2, _, rfl, nofun, rfl, rfl⟩)
      · obtain ⟨rfl, rfl⟩ := Prod.mk.injEq .. ▸ h
        exact .inl ⟨_, _, rfl, nofun, rfl⟩

end Desk

end OrderBench
