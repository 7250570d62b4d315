import OrderBench.Phase
import OrderBench.Proofs.Desk
import Mathlib.Data.List.Nodup
import Mathlib.Tactic.Simps.Basic

/-!
Phases and their moves. A step skips the next task, sends its call, or settles a call under way; what the
journal tells of a run is what the moves tell.
-/
namespace OrderBench.Phase

/-! Views of moves. -/

namespace Move

def begun? : Move → Option (Option Call)
  | .start _ call => some call
  | .finish _ _ _ => none

def sent? : Move → Option (Nat × Call)
  | .start time call => call.map (time, ·)
  | .finish _ _ _ => none

def cancels? (m : Move) : Option String := m.sent?.bind (·.2.cancels?)

def offered? : Move → Option String
  | .start _ _ => none
  | .finish _ call answer => call.offer? answer

/-- The attempts that a move brings: that of a task without a call comes at once, any other with the answer. -/
def attempts : Move → List Attempt
  | .start _ none => [.nothingToCancel]
  | .start _ (some _) => []
  | .finish _ call answer => [call.attempt answer]

def ended? : Move → Option Nat
  | .start _ _ => none
  | .finish index _ _ => some index

end Move

/-- The calls with which tasks have started, in the order of the tasks. -/
def begun (ms : List Move) : List (Option Call) := ms.filterMap Move.begun?

@[simp] theorem begun_nil : begun [] = [] := rfl

@[simp] theorem begun_append (ms ns : List Move) : begun (ms ++ ns) = begun ms ++ begun ns :=
  List.filterMap_append

@[simp] theorem begun_start (time : Nat) (call : Option Call) : begun [.start time call] = [call] := rfl

@[simp] theorem begun_finish (index : Nat) (call : Call) (answer : Answer) :
    begun [.finish index call answer] = [] := rfl

/-- The calls that are sent are those with which tasks start. -/
theorem map_sent (ms : List Move) : (ms.filterMap Move.sent?).map Prod.snd = (begun ms).filterMap id := by
  rw [begun, List.map_filterMap, List.filterMap_filterMap]
  apply List.filterMap_congr
  intro m _
  cases m with
  | finish => rfl
  | start time call => cases call <;> rfl

theorem offered_start (time : Nat) (call : Option Call) : [Move.start time call].filterMap Move.offered? = [] := rfl

theorem offered_finish (index : Nat) (call : Call) (answer : Answer) :
    [Move.finish index call answer].filterMap Move.offered? = (call.offer? answer).toList := by
  cases ho : call.offer? answer <;> simp [Move.offered?, ho]

theorem attempts_offered (ms : List Move) :
    (ms.flatMap Move.attempts).filterMap Attempt.offered? = ms.filterMap Move.offered? := by
  induction ms with
  | nil => rfl
  | cons m ms ih =>
      rw [List.flatMap_cons, List.filterMap_append, ih, ← List.singleton_append, List.filterMap_append]
      congr 1
      rcases m with ⟨time, _ | call⟩ | ⟨index, call, answer⟩
      · rfl
      · rfl
      · rw [offered_finish, ← call.attempt_offered answer]
        cases ho : (call.attempt answer).offered? <;> simp [Move.attempts, ho]

def ended (ms : List Move) : List Nat := ms.filterMap Move.ended?

theorem ended_append (ms ns : List Move) : ended (ms ++ ns) = ended ms ++ ended ns := List.filterMap_append

theorem mem_ended {ms : List Move} {i : Nat} : i ∈ ended ms ↔ ∃ call answer, Move.finish i call answer ∈ ms := by
  rw [ended, List.mem_filterMap]
  constructor
  · rintro ⟨m, hm, hi⟩
    cases m with
    | start => cases hi
    | finish j call answer =>
        cases hi
        exact ⟨call, answer, hm⟩
  · rintro ⟨call, answer, hm⟩
    exact ⟨_, hm, rfl⟩

/-! What a step does. -/

section
variable (p : Phase)

/-- The next task has found no order to cancel. -/
@[simps]
def skip (desk : Desk) : Phase :=
  { p with
    desk
    started := p.started + 1
    attempts := p.attempts.setIfInBounds p.started (some .nothingToCancel) }

/-- The next task is under way with its call. -/
@[simps]
def send (call : Call) (desk : Desk) : Phase :=
  { p with
    desk
    started := p.started + 1
    free := p.free - 1
    inFlight := (p.started, call) :: p.inFlight }

/-- A call under way is answered. -/
@[simps]
def settle (index : Nat) (call : Call) (answer : Answer) : Phase :=
  { p with
    desk := (p.desk.settle call answer).2
    inFlight := p.inFlight.filter (·.1 ≠ index)
    free := p.free + 1
    attempts := p.attempts.setIfInBounds index (some (call.attempt answer)) }

end

theorem start_none {p q : Phase} {time : Nat} (h : p.start time = some (none, q)) :
    p.started < p.total ∧ 0 < p.free ∧ ∃ desk, p.desk.begin time p.task = (none, desk) ∧ q = p.skip desk := by
  unfold start at h
  split at h
  · next hc =>
    split at h
    · next desk hb => cases h; exact ⟨hc.1, hc.2, desk, hb, rfl⟩
    · cases h
  · cases h

theorem start_some {p q : Phase} {time : Nat} {call : Call} (h : p.start time = some (some call, q)) :
    p.started < p.total ∧ 0 < p.free ∧
      ∃ desk, p.desk.begin time p.task = (some call, desk) ∧ q = p.send call desk := by
  unfold start at h
  split at h
  · next hc =>
    split at h
    · cases h
    · next desk hb => cases h; exact ⟨hc.1, hc.2, desk, hb, rfl⟩
  · cases h

theorem finish_some {p q : Phase} {index : Nat} {answer : Answer} (h : p.finish index answer = some q) :
    ∃ call, p.inFlight.lookup index = some call ∧ q = p.settle index call answer := by
  unfold finish at h
  split at h
  · cases h
  · next call hl =>
    cases h
    exact ⟨call, hl, by rw [settle, ← p.desk.settle_attempt call answer]; rfl⟩

theorem finish_of_lookup {p : Phase} {index : Nat} {call : Call} (h : p.inFlight.lookup index = some call)
    (answer : Answer) : p.finish index answer = some (p.settle index call answer) := by
  rw [settle, ← p.desk.settle_attempt call answer, finish, h]
  rfl

theorem exists_start (p : Phase) (time : Nat) (hs : p.started < p.total) (hf : 0 < p.free) :
    ∃ call q, p.start time = some (call, q) := by
  unfold start
  rw [if_pos ⟨hs, hf⟩]
  split
  · exact ⟨none, _, rfl⟩
  · exact ⟨some _, _, rfl⟩

/-- All that a step can do: a task starts without a call, or with one, or its call is answered. -/
theorem step_cases {p q : Phase} {m : Move} (h : Step p m q) :
    (∃ time desk, m = .start time none ∧ p.started < p.total ∧ 0 < p.free ∧
      p.desk.begin time p.task = (none, desk) ∧ q = p.skip desk) ∨
    (∃ time call desk, m = .start time (some call) ∧ p.started < p.total ∧ 0 < p.free ∧
      p.desk.begin time p.task = (some call, desk) ∧ q = p.send call desk) ∨
    (∃ index call answer, m = .finish index call answer ∧ p.inFlight.lookup index = some call ∧
      q = p.settle index call answer) := by
  cases h with
  | @start _ time call h =>
      cases call with
      | none =>
          obtain ⟨hs, hf, desk, hb, hq⟩ := start_none h
          exact .inl ⟨time, desk, rfl, hs, hf, hb, hq⟩
      | some call =>
          obtain ⟨hs, hf, desk, hb, hq⟩ := start_some h
          exact .inr (.inl ⟨time, call, desk, rfl, hs, hf, hb, hq⟩)
  | @finish _ index call answer hc h =>
      obtain ⟨call', hl, hq⟩ := finish_some h
      obtain rfl : call = call' := by rw [hc] at hl; exact Option.some.inj hl
      exact .inr (.inr ⟨index, call, answer, rfl, hl, hq⟩)

theorem step_task {p q : Phase} {m : Move} (h : Step p m q) : q.task = p.task ∧ q.total = p.total := by
  obtain ⟨_, _, -, -, -, -, rfl⟩ | ⟨_, _, _, -, -, -, -, rfl⟩ | ⟨_, _, _, -, -, rfl⟩ := step_cases h <;>
    exact ⟨rfl, rfl⟩

theorem run_task {p q : Phase} {ms : List Move} (h : Run p ms q) : q.task = p.task ∧ q.total = p.total := by
  induction h with
  | nil => exact ⟨rfl, rfl⟩
  | snoc _ hs ih => rw [(step_task hs).1, (step_task hs).2]; exact ih

theorem step_desk {p q : Phase} {m : Move} (h : Step p m q) :
    (∃ time call, m = .start time call ∧ p.desk.begin time p.task = (call, q.desk)) ∨
      ∃ index call answer, m = .finish index call answer ∧ q.desk = (p.desk.settle call answer).2 := by
  obtain ⟨time, _, rfl, -, -, hb, rfl⟩ | ⟨time, _, _, rfl, -, -, hb, rfl⟩ | ⟨_, _, _, rfl, -, rfl⟩ := step_cases h
  · exact .inl ⟨time, _, rfl, hb⟩
  · exact .inl ⟨time, _, rfl, hb⟩
  · exact .inr ⟨_, _, _, rfl, rfl⟩

theorem step_calls {p q : Phase} {m : Move} (h : Step p m q) :
    q.desk.journal.calls = p.desk.journal.calls ++ m.sent?.toList := by
  obtain ⟨time, call, rfl, hb⟩ | ⟨_, call, answer, rfl, hd⟩ := step_desk h
  · obtain ⟨_, _, rfl, -, he⟩ | ⟨_, _, _, rfl, -, -, he⟩ | ⟨rfl, -, -, he⟩ := Desk.begin_cases hb <;>
      simp [he, Move.sent?, Entry.call?]
  · rw [hd, Desk.settle_calls]; simp [Move.sent?]

theorem run_calls {p q : Phase} {ms : List Move} (h : Run p ms q) :
    q.desk.journal.calls = p.desk.journal.calls ++ ms.filterMap Move.sent? := by
  induction h with
  | nil => simp
  | @snoc ms m q r _ hs ih => rw [step_calls hs, ih]; cases hm : m.sent? <;> simp [hm]

theorem step_offers {p q : Phase} {m : Move} (h : Step p m q) :
    q.desk.journal.offers = p.desk.journal.offers ++ m.offered?.toList := by
  obtain ⟨time, call, rfl, hb⟩ | ⟨_, call, answer, rfl, hd⟩ := step_desk h
  · obtain ⟨_, _, rfl, -, he⟩ | ⟨_, _, _, rfl, -, -, he⟩ | ⟨rfl, -, -, he⟩ := Desk.begin_cases hb <;>
      simp [he, Move.offered?, Entry.offered?]
  · rw [hd, Desk.settle_offers]; rfl

theorem run_offers {p q : Phase} {ms : List Move} (h : Run p ms q) :
    q.desk.journal.offers = p.desk.journal.offers ++ ms.filterMap Move.offered? := by
  induction h with
  | nil => simp
  | @snoc ms m q r _ hs ih => rw [step_offers hs, ih]; cases hm : m.offered? <;> simp [hm]

end OrderBench.Phase
