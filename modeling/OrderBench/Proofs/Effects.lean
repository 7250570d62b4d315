import OrderBench.Driver
import OrderBench.Proofs.Cancellation

/-!
What the operations at a desk do to its open orders. Only an answer that brings an id adds to them, only a cancel that
names no order takes from them, and the journal keeps count of both.
-/
namespace OrderBench

def Entry.taken? : Entry → Option String
  | .taken id => some id
  | _ => none

namespace Journal

/-- The ids that were taken from the open orders, in that order. -/
def takings (j : Journal) : List String := j.reverse.filterMap Entry.taken?

variable (newer older : Journal)

theorem registrations_append : registrations (newer ++ older) = older.registrations ++ newer.registrations := by
  simp [registrations]

theorem takings_append : takings (newer ++ older) = older.takings ++ newer.takings := by simp [takings]

theorem cancelled_append : cancelled (newer ++ older) = older.cancelled ++ newer.cancelled := by
  simp [cancelled, calls]

theorem offers_append : offers (newer ++ older) = older.offers ++ newer.offers := by simp [offers]

theorem takings_aside {e : Entry} (h : e.Aside) : takings [e] = [] := by
  cases e <;> simp_all [Entry.Aside, takings, Entry.taken?]

end Journal

namespace Desk

/-! Single operations. -/

/-- The second half of an operation, which ends with an attempt. -/
inductive Registers (d : Desk) (a : Attempt) : Desk → Prop
  | added {id : String} {o : OpenOrders} (ha : a.offered? = some id) (hid : id ∉ d.openOrders.toList)
      (h : o.toList = d.openOrders.toList ++ [id]) :
      Registers d a { d with openOrders := o, journal := .registered id :: d.journal }
  | known {id : String} (ha : a.offered? = some id) (hid : id ∈ d.openOrders.toList) :
      Registers d a (d.note (.refused id))
  | nothing (ha : a.offered? = none) : Registers d a d
  | remarked {e : Entry} (ha : a.offered? = none) (he : e.Aside) : Registers d a (d.note e)

variable (d : Desk)

theorem settle_registers (call : Call) (answer : Answer) :
    d.Registers (d.settle call answer).1 (d.settle call answer).2 := by
  have ha := call.attempt_offered answer
  rw [settle_attempt]
  rcases d.settle_cases call answer with ⟨id, ho, he⟩ | ⟨ho, he | ⟨e, haside, he⟩⟩
  · rw [he]
    rcases d.register_cases id with ⟨hid, o, h, he⟩ | ⟨hid, he⟩
    · exact he ▸ .added (ha.trans ho) hid h
    · exact he ▸ .known (ha.trans ho) hid
  · rw [he]
    exact .nothing (ha.trans ho)
  · rw [he]
    exact .remarked (ha.trans ho) haside

/-! Operations one after the other, and beside one another. -/

/-- One half of an operation, or of a task of a run, with the attempt that ends there. -/
inductive Act : List Attempt → Desk → Prop
  | place (time : Nat) (side : Option Side) (price : Option Int64) : Act [] (d.place time side price).2
  | cancel {time : Nat} {id : Option String} {call : Option Call} {e : Desk} (h : d.cancel time id = (call, e)) :
      Act (Phase.Move.start time call).attempts e
  | begin {time : Nat} {task : Task} {call : Option Call} {e : Desk} (h : d.begin time task = (call, e)) :
      Act (Phase.Move.start time call).attempts e
  | settle (call : Call) (answer : Answer) : Act [(d.settle call answer).1] (d.settle call answer).2
  | note (e : Entry) (h : e.Aside) : Act [] (d.note e)

/-- The attempts of any operations, from one state of a desk to a later one. -/
inductive Course : List Attempt → Desk → Prop
  | nil : Course [] d
  | snoc {attempts ended : List Attempt} {e f : Desk} :
      Course attempts e → Act e ended f → Course (attempts ++ ended) f

/-- What is told since then of the open orders, and of the ids that the attempts brought. Each id was taken for a call
to cancel it. -/
structure Balanced (attempts : List Attempt) (e : Desk) (since : Journal) : Prop where
  journal : e.journal = since ++ d.journal
  queue : d.openOrders.toList ++ since.registrations = since.takings ++ e.openOrders.toList
  takings : since.takings.Sublist since.cancelled
  offers : (attempts.filterMap Attempt.offered?).Perm since.offers

variable {d} {e f : Desk} {attempts ended : List Attempt} {since later : Journal}

theorem Balanced.trans (h : d.Balanced attempts e since) (h' : e.Balanced ended f later) :
    d.Balanced (attempts ++ ended) f (later ++ since) where
  journal := by rw [h'.journal, h.journal, List.append_assoc]
  queue := by
    rw [Journal.registrations_append, Journal.takings_append, ← List.append_assoc, h.queue, List.append_assoc,
      h'.queue, List.append_assoc]
  takings := by
    rw [Journal.takings_append, Journal.cancelled_append]
    exact h.takings.append h'.takings
  offers := by
    rw [List.filterMap_append, Journal.offers_append]
    exact h.offers.append h'.offers

theorem Balanced.perm (h : d.Balanced attempts e since) (hp : attempts.Perm ended) : d.Balanced ended e since :=
  ⟨h.journal, h.queue, h.takings, (hp.filterMap _).symm.trans h.offers⟩

theorem Balanced.size (h : d.Balanced attempts e since) :
    e.openOrders.size + since.takings.length = d.openOrders.size + since.registrations.length := by
  have hlen := congrArg List.length h.queue
  rw [List.length_append, List.length_append] at hlen
  rw [OpenOrders.size_eq_length, OpenOrders.size_eq_length]
  omega

theorem Balanced.placed (h : d.Balanced attempts e since) :
    attempts.countP (·.offered?.isSome) = since.registrations.length + since.warnings.length := by
  rw [← List.length_filterMap_eq_countP, h.offers.length_eq, Journal.length_offers, Journal.warnings_eq,
    List.length_map]

/-- The open orders are what there was and what was accepted, without what was taken; and an id that a placement
brought was accepted or warned of. -/
def Accounted (d : Desk) (attempts : List Attempt) (e : Desk) : Prop :=
  ∃ since, d.Balanced attempts e since ∧
    e.openOrders.size + since.takings.length = d.openOrders.size + since.registrations.length ∧
    attempts.countP (·.offered?.isSome) = since.registrations.length + since.warnings.length

theorem Balanced.accounted {j : Journal} (h : d.Balanced attempts e j) : d.Accounted attempts e :=
  ⟨j, h, h.size, h.placed⟩

theorem Accounted.still {j : Journal} (hj : e.journal = j ++ d.journal) (ho : e.openOrders = d.openOrders)
    (hr : j.registrations = []) (ht : j.takings = []) (hoffers : (attempts.filterMap Attempt.offered?).Perm j.offers) :
    d.Accounted attempts e := by
  apply Balanced.accounted (j := j)
  refine ⟨hj, ?_, ?_, hoffers⟩
  · rw [hr, ht, ho]
    exact List.append_nil _
  · rw [ht]
    exact List.nil_sublist _

theorem Accounted.nil : d.Accounted [] d := Accounted.still (j := []) rfl rfl rfl rfl .nil

theorem Accounted.trans (h : d.Accounted attempts e) (h' : e.Accounted ended f) :
    d.Accounted (attempts ++ ended) f := by
  obtain ⟨since, hb, -⟩ := h
  obtain ⟨later, hl, -⟩ := h'
  exact (hb.trans hl).accounted

theorem Accounted.perm (h : d.Accounted attempts e) (hp : attempts.Perm ended) : d.Accounted ended e := by
  obtain ⟨since, hb, -⟩ := h
  exact (hb.perm hp).accounted

theorem Accounted.note {entry : Entry} (h : entry.Aside) : d.Accounted [] (d.note entry) := by
  refine Accounted.still (j := [entry]) rfl rfl ?_ ?_ ?_
  · exact Journal.registrations_aside h
  · exact Journal.takings_aside h
  · rw [Journal.offers_aside h]
    exact .nil

theorem Accounted.called (time : Nat) (call : Call) (draws : Draws) :
    d.Accounted [] { d with draws, journal := .called time call :: d.journal } :=
  Accounted.still (j := [.called time call]) rfl rfl rfl rfl .nil

theorem Accounted.taken {oldest : String} {o : OpenOrders} (h : d.openOrders.toList = oldest :: o.toList) (time : Nat)
    (draws : Draws) : d.Accounted []
      { d with openOrders := o, draws, journal := .called time (.cancel oldest) :: .taken oldest :: d.journal } := by
  apply Balanced.accounted (j := [.called time (.cancel oldest), .taken oldest])
  exact ⟨rfl, (List.append_nil _).trans h, .refl _, .nil⟩

theorem Accounted.idle : d.Accounted [.nothingToCancel] d := Accounted.still (j := []) rfl rfl rfl rfl .nil

theorem cancels_accounted {time : Nat} {id : Option String} {call : Option Call} (h : d.Cancels time id call e) :
    d.Accounted (Phase.Move.start time call).attempts e := by
  cases h with
  | given => exact .called time _ d.draws
  | oldest _ h => exact .taken h time d.draws
  | idle => exact .idle

theorem begin_accounted {time : Nat} {task : Task} {call : Option Call} (h : d.begin time task = (call, e)) :
    d.Accounted (Phase.Move.start time call).attempts e := by
  rcases begin_cases h with ⟨order, draws, rfl, -, rfl⟩ | ⟨id, o, draws, rfl, -, ht, rfl⟩ | ⟨rfl, -, -, rfl⟩
  · exact .called time _ draws
  · exact .taken (OpenOrders.toList_of_take? ht) time draws
  · exact .idle

theorem registers_accounted {a : Attempt} (h : d.Registers a e) : d.Accounted [a] e := by
  -- an attempt that brings no id counts for nothing, at this desk and after a remark
  have hnothing (ha : a.offered? = none) (f : Desk) : f.Accounted [a] f := by
    refine Accounted.still (j := []) rfl rfl rfl rfl (.of_eq ?_)
    simp [ha, Journal.offers]
  cases h with
  | @added id o ha _ h =>
      apply Balanced.accounted (j := [.registered id])
      refine ⟨rfl, h.symm, List.nil_sublist _, .of_eq ?_⟩
      simp [ha, Journal.offers, Entry.offered?]
  | @known id ha _ =>
      refine Accounted.still (j := [.refused id]) rfl rfl rfl rfl (.of_eq ?_)
      simp [ha, Journal.offers, Entry.offered?]
  | nothing ha => exact hnothing ha d
  | remarked ha he => exact (Accounted.note he).trans (hnothing ha _)

theorem act_accounted (h : d.Act attempts e) : d.Accounted attempts e := by
  cases h with
  | place time side price => exact .called time _ _
  | @cancel time id call e h => exact cancels_accounted (h ▸ d.cancels time id)
  | begin h => exact begin_accounted h
  | settle call answer => exact registers_accounted (d.settle_registers call answer)
  | note entry h => exact .note h

theorem course_accounted (h : d.Course attempts e) : d.Accounted attempts e := by
  induction h with
  | nil => exact .nil
  | snoc _ ha ih => exact ih.trans (act_accounted ha)

theorem Act.course (h : d.Act attempts e) : d.Course attempts e := .snoc .nil h

theorem Course.trans (h : d.Course attempts e) (h' : e.Course ended f) : d.Course (attempts ++ ended) f := by
  induction h' with
  | nil => rwa [List.append_nil]
  | snoc _ ha ih =>
      rw [← List.append_assoc]
      exact ih.snoc ha

end Desk

/-! Runs take such courses. -/

theorem Phase.step_act {p q : Phase} {m : Phase.Move} (h : Phase.Step p m q) : p.desk.Act m.attempts q.desk := by
  rcases Phase.step_desk h with ⟨time, call, rfl, hb⟩ | ⟨index, call, answer, rfl, hd⟩
  · exact .begin hb
  · have ha : (Phase.Move.finish index call answer).attempts = [(p.desk.settle call answer).1] := by
      rw [p.desk.settle_attempt]
      rfl
    rw [ha, hd]
    exact .settle call answer

theorem Phase.run_course {p q : Phase} {ms : List Phase.Move} (h : Phase.Run p ms q) :
    p.desk.Course (ms.flatMap Phase.Move.attempts) q.desk := by
  induction h with
  | nil => exact .nil
  | snoc _ hs ih =>
      rw [List.flatMap_append, List.flatMap_singleton]
      exact ih.snoc (step_act hs)

namespace Driver

theorem step_course {d e : Driver} {m : Option Phase.Move} (h : Step d m e) :
    d.desk.Course (m.toList.flatMap Phase.Move.attempts) e.desk := by
  cases h with
  | begin => exact .nil
  | warmUp | warm | finish => exact Desk.Act.course (.note _ trivial)
  | warming h | measuring h =>
      rw [Option.toList_some, List.flatMap_singleton]
      exact (Phase.step_act h).course

theorem history_course {d e : Driver} {ms : List Phase.Move} (h : History d ms e) :
    d.desk.Course (ms.flatMap Phase.Move.attempts) e.desk := by
  induction h with
  | nil => exact .nil
  | snoc _ hs ih =>
      rw [List.flatMap_append]
      exact ih.trans (step_course hs)

end Driver

end OrderBench
