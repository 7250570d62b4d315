import OrderBench.Proofs.Balance
import OrderBench.Proofs.ErrorRanking
import OrderBench.Proofs.Limits
import OrderBench.Proofs.Tokens

/-!
Why attempts fail. A message tells the class of its failure and the status, whatever text a response or an error
brings into it, so that no line of an error table counts failures of two classes or of two statuses.
-/
namespace OrderBench

/-- The ways to fail: no answer in time, another error in its place, a status other than 200, an answer to a placement
that cannot be read, and no order to cancel. -/
inductive FailureClass
  | timeout
  | error
  | refused
  | unreadable
  | idle
  deriving DecidableEq

/-- What an attempt failed by. -/
inductive Attempt.FailedBy : Attempt → FailureClass → Prop
  | timeout (call : Call) (latency : Nat) (after : Duration) :
      FailedBy (call.attempt ⟨latency, .error (.timeout after)⟩) .timeout
  | error (call : Call) (latency : Nat) {e : ApiError} (h : ∀ after, e ≠ .timeout after) :
      FailedBy (call.attempt ⟨latency, .error e⟩) .error
  | refused (call : Call) (latency : Nat) (body : String) {status : UInt16} (h : status ≠ 200) :
      FailedBy (call.attempt ⟨latency, .ok ⟨status, body⟩⟩) .refused
  | unreadable (order : OrderRequest) (latency : Nat) {body : String} {fault : EnvelopeFault}
      (h : orderId body = .error fault) :
      FailedBy ((Call.place order).attempt ⟨latency, .ok ⟨200, body⟩⟩) .unreadable
  | idle : FailedBy .nothingToCancel .idle

/-- The digits of a number end at the first character that is none. -/
theorem toDigits_inj_of_append {m n : Nat} {mark : Char} (hm : mark.isDigit = false) {rest rest' : List Char}
    (h : Nat.toDigits 10 m ++ mark :: rest = Nat.toDigits 10 n ++ mark :: rest') : m = n := by
  have hread (k : Nat) (rest : List Char) :
      (Nat.toDigits 10 k ++ mark :: rest).takeWhile Char.isDigit = Nat.toDigits 10 k := by
    rw [List.takeWhile_append_of_pos (digits_toDigits k).2, List.takeWhile_cons_of_neg (by simp [hm]), List.append_nil]
  have hdigits : Nat.toDigits 10 m = Nat.toDigits 10 n := by rw [← hread m rest, h, hread]
  rw [← ofDigits_toDigits m, hdigits, ofDigits_toDigits]

namespace FailureClass

/-- The messages of a class and a status, with any text where a message quotes an error or a body. -/
inductive Words : FailureClass → UInt16 → String → Prop
  | timeout : Words .timeout 0 "request timed out"
  | error (text : String) : Words .error 0 ("exception: " ++ text)
  | refused (status : UInt16) (text : String) : Words .refused status s!"HTTP {status}: {text}"
  | unreadable (text : String) : Words .unreadable 200 ("failed to parse response: " ++ text)
  | idle : Words .idle 0 "no orders available to cancel"

def initial : FailureClass → Char
  | .timeout => 'r'
  | .error => 'e'
  | .refused => 'H'
  | .unreadable => 'f'
  | .idle => 'n'

theorem initial_injective {c c' : FailureClass} (h : c.initial = c'.initial) : c = c' := by
  cases c <;> cases c' <;> first | rfl | exact absurd h (by decide)

variable {c c' : FailureClass} {status status' : UInt16} {message message' : String}

theorem Words.head (h : Words c status message) : message.toList.head? = some c.initial := by
  cases h <;> simp [initial, toString]

theorem Words.ne_empty (h : Words c status message) : message ≠ "" := by
  rintro rfl
  cases h.head

theorem toList_refused (status : UInt16) (text : String) :
    (s!"HTTP {status}: {text}").toList =
      "HTTP ".toList ++ (Nat.toDigits 10 status.toNat ++ ':' :: ' ' :: text.toList) := by
  have hstatus : (toString status).toList = Nat.toDigits 10 status.toNat := Nat.toList_repr
  simp only [String.toList_append, hstatus, List.append_assoc]
  rfl

theorem refused_inj {other : UInt16} {text cut : String} (h : s!"HTTP {status}: {text}" = s!"HTTP {other}: {cut}") :
    status = other := by
  have hchars := congrArg String.toList h
  rw [toList_refused, toList_refused] at hchars
  exact UInt16.toNat_inj.mp (toDigits_inj_of_append rfl (List.append_cancel_left hchars))

/-- Within a class only a refusal has more than one status, and its message spells the status out. -/
theorem Words.status_eq (h : Words c status message) (h' : Words c status' message') (hm : message = message') :
    status = status' := by
  cases h with
  | refused _ text => cases h' with | refused _ text' => exact refused_inj hm
  | timeout | error | unreadable | idle => cases h'; rfl

theorem Words.unique (h : Words c status message) (h' : Words c' status' message) : c = c' ∧ status = status' := by
  obtain rfl : c = c' := initial_injective (Option.some_inj.mp (h.head.symm.trans h'.head))
  exact ⟨rfl, h.status_eq h' rfl⟩

end FailureClass

namespace Attempt

variable {a b : Attempt} {c c' : FailureClass}

theorem FailedBy.words (h : a.FailedBy c) : ∃ message, a.error? = some message ∧ c.Words a.status message := by
  cases h with
  | timeout call latency after => exact ⟨_, rfl, .timeout⟩
  | @error call latency e h =>
      cases e with
      | timeout after => exact absurd rfl (h after)
      | transport | request => exact ⟨_, rfl, .error _⟩
  | @refused call latency body status h =>
      refine ⟨s!"HTTP {status}: {cutBody body}", ?_, .refused status _⟩
      exact error?_eq_some.mpr (Call.verdict_refused h)
  | @unreadable order latency body fault h =>
      refine ⟨"failed to parse response: " ++ cutBody body, ?_, .unreadable _⟩
      exact error?_eq_some.mpr (Call.verdict_unreadable order h)
  | idle => exact ⟨_, rfl, .idle⟩

/-- A message is that of one class and one status. -/
theorem FailedBy.unique (ha : a.FailedBy c) (hb : b.FailedBy c') (h : a.error? = b.error?) :
    c = c' ∧ a.status = b.status := by
  obtain ⟨message, hm, hw⟩ := ha.words
  obtain ⟨other, ho, hw'⟩ := hb.words
  obtain rfl : message = other := Option.some_inj.mp (hm.symm.trans (h.trans ho))
  exact hw.unique hw'

theorem FailedBy.iff_eq (h : a.FailedBy c) (c' : FailureClass) : a.FailedBy c' ↔ c' = c := by
  constructor
  · intro h'
    exact (h'.unique h rfl).1
  · rintro rfl
    exact h

theorem isNone_error (a : Attempt) : a.error?.isNone = a.succeeded := by
  unfold error? succeeded
  cases a.verdict <;> rfl

theorem failed_of_error {message : String} (h : a.error? = some message) : a.succeeded = false := by
  rw [← isNone_error, h]
  rfl

/-- Where it failed, there is a cause. -/
def Explained (a : Attempt) : Prop := a.succeeded = false → ∃ c, a.FailedBy c

theorem explained_attempt (call : Call) (answer : Answer) : (call.attempt answer).Explained := by
  obtain ⟨latency, outcome⟩ := answer
  intro hf
  rcases outcome with (after | text | text) | ⟨status, body⟩
  · exact ⟨_, .timeout call latency after⟩
  · exact ⟨_, .error call latency nofun⟩
  · exact ⟨_, .error call latency nofun⟩
  · by_cases hs : status = 200
    · subst hs
      cases call with
      | cancel id => cases hf
      | place order =>
          cases hb : orderId body with
          | error fault => exact ⟨_, .unreadable order latency hb⟩
          | ok id => simp [succeeded, Call.attempt, Call.verdict_placed order hb] at hf
    · exact ⟨_, .refused call latency body hs⟩

/-- A failure with a cause is counted under its own message. -/
theorem Explained.failure?_eq (h : a.Explained) : a.failure? = a.error? := by
  cases hs : a.succeeded with
  | true =>
      rw [failure?_eq_none.mpr hs]
      exact (Option.isNone_iff_eq_none.mp (a.isNone_error.trans hs)).symm
  | false =>
      obtain ⟨c, hc⟩ := h hs
      obtain ⟨message, hm, hw⟩ := hc.words
      rw [hm]
      exact failsWith_iff.mp (.message hm hw.ne_empty)

theorem Explained.error?_ne_empty (h : a.Explained) : a.error? ≠ some "" := by
  intro hempty
  obtain ⟨c, hc⟩ := h (failed_of_error hempty)
  obtain ⟨message, hm, hw⟩ := hc.words
  exact hw.ne_empty (Option.some_inj.mp (hm.symm.trans hempty))

end Attempt

namespace Desk

variable {d e : Desk} {attempts : List Attempt}

theorem start_explained (time : Nat) (call : Option Call) :
    ∀ a ∈ (Phase.Move.start time call).attempts, a.Explained := by
  intro a ha _
  cases call with
  | some call => cases ha
  | none =>
      obtain rfl := List.mem_singleton.mp ha
      exact ⟨_, .idle⟩

theorem act_explained (h : d.Act attempts e) : ∀ a ∈ attempts, a.Explained := by
  cases h with
  | place | note => exact nofun
  | cancel | begin => exact start_explained _ _
  | settle call answer =>
      intro a ha
      obtain rfl := List.mem_singleton.mp ha
      rw [settle_attempt]
      exact Attempt.explained_attempt call answer

theorem course_explained (h : d.Course attempts e) : ∀ a ∈ attempts, a.Explained := by
  induction h with
  | nil => exact nofun
  | snoc _ ha ih =>
      intro a hm
      rcases List.mem_append.mp hm with hm | hm
      · exact ih a hm
      · exact act_explained ha a hm

end Desk

/-- An attempt of some operation, whatever else is done at the desk. -/
def Attempt.Issued (a : Attempt) : Prop :=
  ∃ (d e : Desk) (attempts : List Attempt), d.Course attempts e ∧ a ∈ attempts

theorem Attempt.Issued.explained {a : Attempt} (h : a.Issued) : a.Explained := by
  obtain ⟨d, e, attempts, hc, ha⟩ := h
  exact Desk.course_explained hc a ha

theorem Phase.results_issued {desk : Desk} {task : Task} {total permits : Nat} {p : Phase} {ms : List Phase.Move}
    (h : Phase.Run (.opening desk task total permits) ms p) : ∀ a ∈ p.results, a.Issued := by
  intro a ha
  exact ⟨_, _, _, run_course h, (run_results_perm h).mem_iff.mp ha⟩

theorem Driver.Leaves.issued {workload : Workload} {total permits : Nat} {desk : Desk} {r : RunRecord}
    (h : Leaves workload total desk permits r) : ∀ a ∈ r.attempts, a.Issued := by
  cases h with
  | direct elapsed hw hr he => exact Phase.results_issued hr
  | warmed r elapsed => exact Phase.results_issued r.measured_run

namespace Summary

variable {attempts : List Attempt} {line : String × Nat}

/-- A line of an error table counts all failures with its message, and they are of one class and of one status. -/
structure Separates (attempts : List Attempt) (line : String × Nat) (c : FailureClass) (status : UInt16) : Prop where
  positive : 0 < line.2
  counts : line.2 = attempts.countP (·.error? = some line.1)
  cause : ∀ a ∈ attempts, a.error? = some line.1 → a.FailedBy c ∧ a.status = status

theorem failsWith_iff_error {a : Attempt} (h : a.Explained) (message : String) :
    a.FailsWith message ↔ a.error? = some message := by
  rw [Attempt.failsWith_iff, h.failure?_eq]

theorem rankErrors_separates (h : ∀ a ∈ attempts, a.Explained) (hl : line ∈ rankErrors attempts) :
    ∃ c status, Separates attempts line c status := by
  obtain ⟨⟨a, ha, hm⟩, hcount⟩ := ((rankErrors_ranking attempts).mem_iff line).mp hl
  have herror := (failsWith_iff_error (h a ha) line.1).mp hm
  obtain ⟨c, hc⟩ := h a ha (Attempt.failed_of_error herror)
  have hcounts : line.2 = attempts.countP (·.error? = some line.1) := by
    rw [hcount]
    apply List.countP_congr
    intro b hb
    simpa using failsWith_iff_error (h b hb) line.1
  refine ⟨c, a.status, ?_, hcounts, ?_⟩
  · rw [hcount, List.countP_pos_iff]
    exact ⟨a, ha, decide_eq_true hm⟩
  · intro b hb hother
    obtain ⟨c', hc'⟩ := h b hb (Attempt.failed_of_error hother)
    obtain ⟨rfl, hs⟩ := hc'.unique hc (hother.trans herror.symm)
    exact ⟨hc', hs⟩

end Summary

/-- The lines of the errors of a run separate its failures, and none of them has an empty message, which would be
replaced by its status. -/
structure RunRecord.Separated (r : RunRecord) : Prop where
  lines : ∀ line ∈ (Summary.ofRun r).errors, ∃ c status, Summary.Separates r.attempts line c status
  messages : ∀ a ∈ r.attempts, a.error? ≠ some "" ∧ a.failure? = a.error?

theorem Driver.Leaves.separated {workload : Workload} {total permits : Nat} {desk : Desk} {r : RunRecord}
    (h : Leaves workload total desk permits r) : r.Separated where
  lines _ := Summary.rankErrors_separates fun a ha => (h.issued a ha).explained
  messages a ha := ⟨(h.issued a ha).explained.error?_ne_empty, (h.issued a ha).explained.failure?_eq⟩

/-- Whatever is asked and answered, and in whatever order, failures with the same message are of one class and of one
status, at one desk or at two; so each line of the errors of a run counts failures of one class and one status. -/
theorem messages_separate_failures :
    (∀ a b : Attempt, a.Issued → b.Issued → a.succeeded = false → a.error? = b.error? →
      a.status = b.status ∧ ∃ c, (∀ c', a.FailedBy c' ↔ c' = c) ∧ ∀ c', b.FailedBy c' ↔ c' = c) ∧
    (∀ (s : Session) (side : Option Side) (price : Option Int64), (s.place side price).1.Issued) ∧
    (∀ (s : Session) (id : Option String), (s.cancel id).1.Issued) ∧
    (∀ (desk : Desk) (permits : Nat) (ms : List Phase.Move) (e : Driver),
      Driver.History (.idle desk permits) ms e → ∀ a ∈ ms.flatMap Phase.Move.attempts, a.Issued) ∧
    (∀ (workload : Workload) (total permits : Nat) (desk : Desk) (r : RunRecord),
      Driver.Leaves workload total desk permits r → (∀ a ∈ r.attempts, a.Issued) ∧ r.Separated) ∧
    ∀ (s t : Session) (workload : Workload) (total : Nat) (r : RunRecord), 0 < s.permits →
      s.run workload total = .ok (r, t) → Driver.Leaves workload total s.desk s.permits r := by
  refine ⟨?_, ?_, ?_, ?_, ?_, ?_⟩
  · intro a b ha hb hf h
    have hfails : b.succeeded = false := by rw [← b.isNone_error, ← h, a.isNone_error, hf]
    obtain ⟨c, hc⟩ := ha.explained hf
    obtain ⟨c', hc'⟩ := hb.explained hfails
    obtain ⟨rfl, hs⟩ := hc.unique hc' h
    exact ⟨hs, c, hc.iff_eq, hc'.iff_eq⟩
  · intro s side price
    exact ⟨_, _, _, s.place_course side price, List.mem_singleton_self _⟩
  · intro s id
    exact ⟨_, _, _, s.cancel_course id, List.mem_singleton_self _⟩
  · intro desk permits ms e h a ha
    exact ⟨_, _, _, Driver.history_course h, ha⟩
  · intro workload total permits desk r h
    exact ⟨h.issued, h.separated⟩
  · intro s t workload total r hpos h
    exact Session.run_leaves hpos h

/-- A placement and a cancel that a busy service refuses, and three placements, the second of them answered with a
text that is no JSON. -/
theorem messages_separate_failures_of_busy :
    let s : Session := {
      venue := fun number _ => ⟨number, .ok (if number = 2 then ⟨200, "busy"⟩ else ⟨503, "busy"⟩)⟩
      permits := 2
      desk := { symbol := "BTCUSDT", draws := .cyclic #[] } }
    (∃ c, (s.place none none).1.FailedBy c ∧ (s.cancel (some "7")).1.FailedBy c) ∧
      ∃ r t, s.run .place 3 = .ok (r, t) ∧
        (Summary.ofRun r).errors = [("HTTP 503: busy", 2), ("failed to parse response: busy", 1)] ∧
        (∀ line ∈ (Summary.ofRun r).errors, ∃ c status, Summary.Separates r.attempts line c status) := by
  intro s
  obtain ⟨hpair, hplace, hcancel, -, hleaves, hrun⟩ := messages_separate_failures
  obtain ⟨-, c, hc, hc'⟩ := hpair _ _ (hplace s none none) (hcancel s (some "7")) rfl rfl
  refine ⟨⟨c, (hc c).mpr rfl, (hc' c).mpr rfl⟩, ?_⟩
  have hcount : Workload.place.warmupCount 3 = .ok none := rfl
  obtain ⟨r, t, hr⟩ := s.run_ok (by decide) hcount
  obtain ⟨-, hseparated⟩ := hleaves .place 3 s.permits s.desk r (hrun s t .place 3 r (by decide) hr)
  have hfailures : (s.run .place 3).toOption.map (failures ·.1.attempts) =
      some ["HTTP 503: busy", "failed to parse response: busy", "HTTP 503: busy"] := by decide +kernel
  have hmessages : failures r.attempts = ["HTTP 503: busy", "failed to parse response: busy", "HTTP 503: busy"] := by
    rw [hr] at hfailures
    exact Option.some_inj.mp hfailures
  refine ⟨r, t, hr, ?_, hseparated.lines⟩
  calc Summary.rankErrors r.attempts
    _ = (Summary.messageTable (failures r.attempts)).mergeSort fun a b => b.2 ≤ a.2 := Summary.rankErrors_eq _
    _ = [("HTTP 503: busy", 2), ("failed to parse response: busy", 1)] := by
      rw [hmessages]
      simp [Summary.messageTable, List.mergeSort, List.eraseDups_cons]

end OrderBench
