import OrderBench.Session
import OrderBench.Proofs.Desk

/-!
Single requests. A request makes one call at most, and the answer to the call decides how the attempt ends, with
which status and in which words.
-/
namespace OrderBench

/-- The text up to its 200th character. -/
structure Cut (body cut : String) : Prop where
  start : cut.toList <+: body.toList
  length : cut.length = min 200 body.length

theorem cut_iff {body cut : String} : Cut body cut ↔ cut = cutBody body := by
  constructor
  · rintro ⟨hstart, hlength⟩
    apply String.ext
    rw [cutBody, String.toList_ofList, List.prefix_iff_eq_take.mp hstart, String.length_toList, hlength,
      List.take_eq_take_iff, ← String.length_toList]
    exact Nat.min_eq_left (Nat.min_le_right _ _)
  · rintro rfl
    refine ⟨?_, ?_⟩
    · rw [cutBody, String.toList_ofList]
      exact List.take_prefix _ _
    · rw [cutBody, String.length_ofList, List.length_take, String.length_toList]
      rfl

/-- The answers with which a call succeeds, and the id of the order then. -/
inductive Call.Accepted : Call → Except ApiError Response → Option String → Prop
  | placed {order : OrderRequest} {body : String} {id : Option String} (h : orderId body = .ok id) :
      Accepted (.place order) (.ok ⟨200, body⟩) id
  | cancelled {id body : String} : Accepted (.cancel id) (.ok ⟨200, body⟩) (some id)

/-- The status and the verdict that an answer to a call comes to. -/
inductive Judged : Call → Except ApiError Response → UInt16 → Verdict → Prop
  | accepted {call : Call} {outcome : Except ApiError Response} {id : Option String} (h : call.Accepted outcome id) :
      Judged call outcome 200 (.success id)
  | timeout {call : Call} {after : Duration} :
      Judged call (.error (.timeout after)) 0 (.failure "request timed out")
  | exception {call : Call} {e : ApiError} (h : ∀ after, e ≠ .timeout after) :
      Judged call (.error e) 0 (.failure ("exception: " ++ e.message))
  | refused {call : Call} {status : UInt16} {body cut : String} (h : status ≠ 200) (hc : Cut body cut) :
      Judged call (.ok ⟨status, body⟩) status (.failure s!"HTTP {status}: {cut}")
  | unreadable {order : OrderRequest} {body cut : String} {fault : EnvelopeFault} (h : orderId body = .error fault)
      (hc : Cut body cut) :
      Judged (.place order) (.ok ⟨200, body⟩) 200 (.failure ("failed to parse response: " ++ cut))

namespace Call

variable {call : Call} {body : String}

theorem verdict_placed (order : OrderRequest) {id : Option String} (h : orderId body = .ok id) :
    (Call.place order).verdict ⟨200, body⟩ = .success id := by
  simp [verdict, Response.isOk, h]

theorem verdict_unreadable (order : OrderRequest) {fault : EnvelopeFault} (h : orderId body = .error fault) :
    (Call.place order).verdict ⟨200, body⟩ = .failure ("failed to parse response: " ++ cutBody body) := by
  simp [verdict, Response.isOk, h]

theorem verdict_refused {status : UInt16} (h : status ≠ 200) :
    call.verdict ⟨status, body⟩ = .failure s!"HTTP {status}: {cutBody body}" := by
  cases call <;> simp [verdict, Response.isOk, h, Desk.statusFailure]

end Call

theorem judged_error (call : Call) (e : ApiError) : Judged call (.error e) 0 (.failure (Desk.errorMessage e)) := by
  cases e with
  | timeout after => exact .timeout
  | transport | request => exact .exception nofun

theorem judged_ok (call : Call) (r : Response) : Judged call (.ok r) r.status (call.verdict r) := by
  obtain ⟨status, body⟩ := r
  by_cases hs : status = 200
  · subst hs
    cases call with
    | cancel id => exact .accepted .cancelled
    | place order =>
        cases hb : orderId body with
        | error fault =>
            rw [Call.verdict_unreadable order hb]
            exact .unreadable hb (cut_iff.mpr rfl)
        | ok id =>
            rw [Call.verdict_placed order hb]
            exact .accepted (.placed hb)
  · rw [Call.verdict_refused hs]
    exact .refused hs (cut_iff.mpr rfl)

/-- An answer is judged in one way, as the attempt says. -/
theorem judged_iff {call : Call} {answer : Answer} {status : UInt16} {verdict : Verdict} :
    Judged call answer.outcome status verdict ↔
      status = (call.attempt answer).status ∧ verdict = (call.attempt answer).verdict := by
  obtain ⟨latency, outcome⟩ := answer
  constructor
  · intro h
    cases h with
    | accepted h =>
        cases h with
        | @placed order _ _ h => exact ⟨rfl, (Call.verdict_placed order h).symm⟩
        | cancelled => exact ⟨rfl, rfl⟩
    | timeout => exact ⟨rfl, rfl⟩
    | @exception _ e h =>
        cases e with
        | timeout after => exact absurd rfl (h after)
        | transport | request => exact ⟨rfl, rfl⟩
    | refused h hc =>
        obtain rfl := cut_iff.mp hc
        exact ⟨rfl, (Call.verdict_refused h).symm⟩
    | @unreadable order _ _ _ h hc =>
        obtain rfl := cut_iff.mp hc
        exact ⟨rfl, (Call.verdict_unreadable order h).symm⟩
  · rintro ⟨rfl, rfl⟩
    cases outcome with
    | error e => exact judged_error call e
    | ok r => exact judged_ok call r

/-- An accepted call is the one that succeeds, and a failure says why. -/
theorem Judged.cases {call : Call} {outcome : Except ApiError Response} {status : UInt16} {verdict : Verdict}
    (h : Judged call outcome status verdict) :
    (∃ id, call.Accepted outcome id ∧ status = 200 ∧ verdict = .success id) ∨
      (¬∃ id, call.Accepted outcome id) ∧ ∃ message, verdict = .failure message ∧ message ≠ "" := by
  cases h with
  | accepted h => exact .inl ⟨_, h, rfl, rfl⟩
  | timeout | exception =>
      refine .inr ⟨?_, _, rfl, by simp⟩
      rintro ⟨id, ⟨⟩⟩
  | refused h =>
      refine .inr ⟨?_, _, rfl, by simp [toString]⟩
      rintro ⟨id, ha⟩
      cases ha <;> exact h rfl
  | unreadable h =>
      refine .inr ⟨?_, _, rfl, by simp⟩
      rintro ⟨id, ⟨hb⟩⟩
      cases h.symm.trans hb

/-- What an attempt tells of its call and the answer to it. -/
structure Reports (call : Call) (answer : Answer) (a : Attempt) : Prop where
  kind : a.kind = call.kind
  time : a.time = (Duration.ofNanos answer.latency).seconds
  judged : Judged call answer.outcome a.status a.verdict
  succeeded : a.succeeded = true ↔ ∃ id, call.Accepted answer.outcome id
  success : ∀ id, call.Accepted answer.outcome id → a.status = 200 ∧ a.error? = none ∧ a.orderId? = id
  failure : a.succeeded = false → a.orderId? = none ∧ ∃ message, a.error? = some message ∧ message ≠ ""

theorem Call.Accepted.unique {call : Call} {outcome : Except ApiError Response} {id other : Option String}
    (h : call.Accepted outcome id) (h' : call.Accepted outcome other) : id = other := by
  cases h with
  | placed hb =>
      cases h' with
      | placed hb' => exact Except.ok.inj (hb.symm.trans hb')
  | cancelled =>
      cases h'
      rfl

theorem reports_iff {call : Call} {answer : Answer} {a : Attempt} :
    Reports call answer a ↔ a = call.attempt answer := by
  constructor
  · intro h
    obtain ⟨hstatus, hverdict⟩ := judged_iff.mp h.judged
    rw [Attempt.mk.injEq]
    refine ⟨?_, hstatus, ?_, hverdict⟩
    · rw [h.kind, call.attempt_kind]
    · rw [h.time, call.attempt_time]
  · rintro rfl
    have hj : Judged call answer.outcome (call.attempt answer).status (call.attempt answer).verdict :=
      judged_iff.mpr ⟨rfl, rfl⟩
    rcases hj.cases with ⟨id, ha, hs, hv⟩ | ⟨ha, message, hv, hm⟩
    · refine ⟨call.attempt_kind answer, call.attempt_time answer, hj, ?_, ?_, ?_⟩
      · simp only [Attempt.succeeded, hv]
        exact iff_of_true trivial ⟨id, ha⟩
      · intro other ho
        obtain rfl := ha.unique ho
        simp [Attempt.error?, Attempt.orderId?, hs, hv]
      · simp [Attempt.succeeded, hv]
    · refine ⟨call.attempt_kind answer, call.attempt_time answer, hj, ?_, ?_, ?_⟩
      · simp only [Attempt.succeeded, hv]
        exact iff_of_false Bool.false_ne_true ha
      · intro other ho
        exact absurd ⟨other, ho⟩ ha
      · intro _
        simp only [Attempt.error?, Attempt.orderId?, hv]
        exact ⟨trivial, message, rfl, hm⟩

/-! The call of a request. -/

namespace Desk

variable (d : Desk)

/-- An order for the desk's symbol, with the side and the price that are given. -/
structure Drafts (side : Option Side) (price : Option Int64) (order : OrderRequest) : Prop where
  limit : order = .limit d.symbol order.side order.price
  side : ∀ given, side = some given → order.side = given
  price : ∀ given, price = some given → order.price = given

/-- The order that a cancel is for: the given one unless its id is empty, else the oldest open one. -/
def target? : Option String → Option String
  | none => d.openOrders.toList.head?
  | some id => if id = "" then d.openOrders.toList.head? else some id

theorem draft_drafts (side : Option Side) (price : Option Int64) : d.Drafts side price (d.draft side price).1 := by
  refine ⟨rfl, ?_, ?_⟩
  · rintro given rfl
    rfl
  · rintro given rfl
    rfl

theorem place_calls (time : Nat) (side : Option Side) (price : Option Int64) :
    (d.place time side price).2.journal.calls = d.journal.calls ++ [(time, (d.place time side price).1)] :=
  Journal.calls_cons _ d.journal

variable {d}

theorem target?_of_cancels {time : Nat} {id : Option String} {call : Option Call} {e : Desk}
    (h : d.Cancels time id call e) :
    call = (d.target? id).map Call.cancel ∧
      e.journal.calls = d.journal.calls ++ ((d.target? id).map fun target => (time, Call.cancel target)).toList ∧
      (d.target? id = none → e = d) := by
  cases h with
  | @given given h =>
      have htarget : d.target? (some given) = some given := if_neg h
      rw [htarget]
      exact ⟨rfl, Journal.calls_cons _ d.journal, nofun⟩
  | @oldest id oldest o hid h =>
      have htarget : d.target? id = some oldest := by rcases hid with rfl | rfl <;> simp [target?, h]
      rw [htarget]
      refine ⟨rfl, ?_, nofun⟩
      simp [Entry.call?]
  | idle hid h =>
      have htarget : d.target? id = none := by rcases hid with rfl | rfl <;> simp [target?, h]
      rw [htarget]
      exact ⟨rfl, (List.append_nil _).symm, fun _ => rfl⟩

end Desk

namespace Session

variable (s : Session)

def answerTo (call : Call) : Answer := s.venue (s.tally.count call).1 call

/-- A request has made one call, took as long as the answer to it, and reports that answer. -/
structure Makes (call : Call) (a : Attempt) (t : Session) : Prop where
  calls : t.desk.journal.calls = s.desk.journal.calls ++ [(s.now, call)]
  tally : t.tally = (s.tally.count call).2
  now : t.now = s.now + (s.answerTo call).latency
  reports : Reports call (s.answerTo call) a

theorem await_makes {call : Call} {desk : Desk}
    (h : desk.journal.calls = s.desk.journal.calls ++ [(s.now, call)]) :
    s.Makes call (s.await (some call) desk).1 (s.await (some call) desk).2 where
  calls := (desk.settle_calls call (s.answerTo call)).trans h
  tally := rfl
  now := rfl
  reports := reports_iff.mpr (desk.settle_attempt call (s.answerTo call))

theorem cancel_await (id : Option String) :
    s.cancel id = s.await (s.desk.cancel s.now id).1 (s.desk.cancel s.now id).2 := rfl

theorem cancel_makes {id : Option String} {target : String} (h : s.desk.target? id = some target) :
    s.Makes (.cancel target) (s.cancel id).1 (s.cancel id).2 := by
  obtain ⟨hcall, hcalls, -⟩ := Desk.target?_of_cancels (s.desk.cancels s.now id)
  rw [h] at hcall hcalls
  rw [cancel_await, hcall]
  exact s.await_makes hcalls

theorem cancel_idle {id : Option String} (h : s.desk.target? id = none) :
    s.cancel id = (.nothingToCancel, s) := by
  obtain ⟨hcall, -, hdesk⟩ := Desk.target?_of_cancels (s.desk.cancels s.now id)
  rw [cancel_await, hcall, hdesk h, h]
  rfl

end Session

/-- A placement makes one call, and a cancel one if it has an order to cancel; the attempt reports the answer to this
call, and it does so as well when other calls have been settled at the desk before. -/
theorem request_reported (s : Session) (d : Desk) :
    (∀ side price, ∃ order, s.desk.Drafts side price order ∧
      s.Makes (.place order) (s.place side price).1 (s.place side price).2) ∧
    (∀ id, match s.desk.target? id with
      | some target => s.Makes (.cancel target) (s.cancel id).1 (s.cancel id).2
      | none => s.cancel id = (⟨.cancel, 0, .zero, .failure "no orders available to cancel"⟩, s)) ∧
    (∀ time side price, ∃ order, d.Drafts side price order ∧ (d.place time side price).1 = .place order ∧
      (d.place time side price).2.journal.calls = d.journal.calls ++ [(time, .place order)]) ∧
    (∀ time id, (d.cancel time id).1 = (d.target? id).map Call.cancel ∧
      (d.cancel time id).2.journal.calls =
        d.journal.calls ++ ((d.target? id).map fun target => (time, Call.cancel target)).toList) ∧
    ∀ call answer, (d.settle call answer).2.journal.calls = d.journal.calls ∧
      ∀ a, (d.settle call answer).1 = a ↔ Reports call answer a := by
  refine ⟨?_, ?_, ?_, ?_, ?_⟩
  · intro side price
    exact ⟨_, s.desk.draft_drafts side price, s.await_makes (s.desk.place_calls s.now side price)⟩
  · intro id
    split
    · next h => exact s.cancel_makes h
    · next h => exact s.cancel_idle h
  · intro time side price
    exact ⟨_, d.draft_drafts side price, rfl, d.place_calls time side price⟩
  · intro time id
    obtain ⟨hcall, hcalls, -⟩ := Desk.target?_of_cancels (d.cancels time id)
    exact ⟨hcall, hcalls⟩
  · intro call answer
    refine ⟨d.settle_calls call answer, fun a => ?_⟩
    rw [d.settle_attempt, reports_iff, eq_comm]

end OrderBench
