import OrderBench.Proofs.Desk
import Mathlib.Data.List.Induction

/-!
The open orders under any sequence of requests. A desk replies and warns as a list of ids alone would, and its
index holds what its queue holds.
-/
namespace OrderBench

namespace OpenOrders

inductive Request
  | register (id : String)
  | take
  | size
  | isEmpty

inductive Reply
  | registered (new : Bool)
  | taken (id : Option String)
  | size (n : Nat)
  | isEmpty (empty : Bool)
  deriving DecidableEq

/-- Requests with their replies, the oldest first. -/
abbrev Dialogue := List (Request × Reply)

/-- Open orders as a list of ids, with what was logged. -/
structure Plain where
  ids : List String := []
  log : List (Level × String) := []

/-- A known id is refused with a warning, and changes nothing. -/
def Plain.answer (p : Plain) : Request → Reply × Plain
  | .register id =>
    if id ∈ p.ids then
      (.registered false, { p with log := p.log ++ [(.warn, s!"Ignoring duplicate order id {id}")] })
    else (.registered true, { p with ids := p.ids ++ [id] })
  | .take => (.taken p.ids.head?, { p with ids := p.ids.tail })
  | .size => (.size p.ids.length, p)
  | .isEmpty => (.isEmpty (p.ids = []), p)

section
variable {σ τ : Type} (answer : σ → Request → Reply × σ)

def answerAll (s : σ) : List Request → Dialogue × σ
  | [] => ([], s)
  | r :: rs =>
    let (reply, s) := answer s r
    let (dialogue, s) := answerAll s rs
    ((r, reply) :: dialogue, s)

theorem answerAll_concat (s : σ) (rs : List Request) (r : Request) :
    answerAll answer s (rs ++ [r]) =
      ((answerAll answer s rs).1 ++ [(r, (answer (answerAll answer s rs).2 r).1)],
        (answer (answerAll answer s rs).2 r).2) := by
  induction rs generalizing s with
  | nil => rfl
  | cons q rs ih => simp only [List.cons_append, answerAll, ih]

/-- Two that reply alike as long as they are alike hold the same dialogues. -/
theorem answerAll_simulates {other : τ → Request → Reply × τ} {Alike : σ → τ → Prop}
    (step : ∀ s t r, Alike s t → (answer s r).1 = (other t r).1 ∧ Alike (answer s r).2 (other t r).2)
    {s : σ} {t : τ} (h : Alike s t) (rs : List Request) :
    (answerAll answer s rs).1 = (answerAll other t rs).1 ∧
      Alike (answerAll answer s rs).2 (answerAll other t rs).2 := by
  induction rs generalizing s t with
  | nil => exact ⟨rfl, h⟩
  | cons r rs ih =>
      obtain ⟨hreply, hnext⟩ := step s t r h
      obtain ⟨hdialogue, hlast⟩ := ih hnext
      refine ⟨?_, hlast⟩
      simp only [answerAll, hreply, hdialogue]

end

/-! When an id is known. -/

/-- The id was accepted, and has not been taken since. -/
def Held (id : String) (dialogue : Dialogue) : Prop :=
  ∃ before later, dialogue = before ++ (.register id, .registered true) :: later ∧
    (.take, .taken (some id)) ∉ later

theorem held_concat {id : String} {dialogue : Dialogue} {exchange : Request × Reply} :
    Held id (dialogue ++ [exchange]) ↔
      exchange = (.register id, .registered true) ∨ Held id dialogue ∧ exchange ≠ (.take, .taken (some id)) := by
  constructor
  · rintro ⟨before, later, he, hlater⟩
    obtain rfl | ⟨last, e, rfl⟩ := List.eq_nil_or_concat later
    · exact .inl (List.append_inj_right' he rfl |> List.singleton_inj.mp)
    · rw [List.concat_eq_append] at he hlater
      rw [← List.cons_append, ← List.append_assoc] at he
      obtain ⟨hdialogue, hlast⟩ := List.append_inj' he rfl
      obtain rfl := List.singleton_inj.mp hlast
      refine .inr ⟨⟨before, last, hdialogue, fun hm => hlater (List.mem_append_left _ hm)⟩, ?_⟩
      rintro rfl
      exact hlater (by simp)
  · rintro (rfl | ⟨⟨before, later, rfl, hlater⟩, hne⟩)
    · exact ⟨dialogue, [], rfl, List.not_mem_nil⟩
    · refine ⟨before, later ++ [exchange], by simp, ?_⟩
      rw [List.mem_append, List.mem_singleton, not_or]
      exact ⟨hlater, hne.symm⟩

/-- A list after a dialogue: it holds each id once that was accepted and not taken since. -/
structure Plain.Kept (p : Plain) (dialogue : Dialogue) : Prop where
  nodup : p.ids.Nodup
  mem_ids : ∀ id, id ∈ p.ids ↔ Held id dialogue

theorem Plain.Kept.answer {p : Plain} {dialogue : Dialogue} (h : p.Kept dialogue) (r : Request) :
    (p.answer r).2.Kept (dialogue ++ [(r, (p.answer r).1)]) := by
  cases r with
  | register id =>
      by_cases hm : id ∈ p.ids
      · simp only [Plain.answer, hm, if_true]
        refine ⟨h.nodup, fun other => ?_⟩
        simp [held_concat, h.mem_ids]
      · simp only [Plain.answer, hm, if_false]
        refine ⟨?_, fun other => ?_⟩
        · rw [List.nodup_append]
          refine ⟨h.nodup, List.nodup_cons.mpr ⟨List.not_mem_nil, List.nodup_nil⟩, ?_⟩
          rintro a ha b hb rfl
          exact hm (List.mem_singleton.mp hb ▸ ha)
        · simp [held_concat, h.mem_ids, or_comm, eq_comm]
  | take =>
      simp only [Plain.answer]
      cases hl : p.ids with
      | nil =>
          refine ⟨List.nodup_nil, fun other => ?_⟩
          have := h.mem_ids other
          simp_all [held_concat]
      | cons first ids =>
          -- the head is taken, and stands nowhere else
          have hn := h.nodup
          rw [hl, List.nodup_cons] at hn
          refine ⟨hn.2, fun other => ?_⟩
          have hm := h.mem_ids other
          rw [hl, List.mem_cons] at hm
          simp only [held_concat, ← hm, List.tail_cons, List.head?_cons, Prod.mk.injEq, reduceCtorEq, false_and,
            false_or, ne_eq, Reply.taken.injEq, Option.some.injEq, true_and]
          constructor
          · intro ho
            exact ⟨.inr ho, fun he => hn.1 (he ▸ ho)⟩
          · rintro ⟨rfl | ho, hne⟩
            · exact absurd rfl hne
            · exact ho
  | size | isEmpty =>
      refine ⟨h.nodup, fun other => ?_⟩
      simp [Plain.answer, held_concat, h.mem_ids]

theorem Plain.answerAll_kept (rs : List Request) :
    (answerAll Plain.answer {} rs).2.Kept (answerAll Plain.answer {} rs).1 := by
  induction rs using List.reverseRecOn with
  | nil => exact ⟨List.nodup_nil, fun id => by simp [answerAll, Held]⟩
  | append_singleton rs r ih =>
      rw [answerAll_concat]
      exact ih.answer r

end OpenOrders

/-! The desk. -/

namespace Desk

open OpenOrders

def answer (d : Desk) : OpenOrders.Request → Reply × Desk
  | .register id => (.registered (d.openOrders.register? id).isSome, d.register id)
  | .take => match d.pop with
    | (id, d) => (.taken id, d)
  | .size => (.size d.openOrders.size, d)
  | .isEmpty => (.isEmpty d.openOrders.isEmpty, d)

/-- The desk has these ids open, and has logged this, whatever the complaints. -/
def Shows (d : Desk) (p : Plain) : Prop :=
  d.openOrders.toList = p.ids ∧ ∀ complaint, d.journal.log complaint = p.log

theorem answer_shows (d : Desk) (p : Plain) (r : OpenOrders.Request) (h : d.Shows p) :
    (d.answer r).1 = (p.answer r).1 ∧ (d.answer r).2.Shows (p.answer r).2 := by
  obtain ⟨hids, hlog⟩ := h
  cases r with
  | register id =>
      have hnone : d.openOrders.register? id = none ↔ _ := d.openOrders.register?_eq_none_iff
      obtain ⟨hm, o, ho, hr⟩ | ⟨hm, hr⟩ := d.register_cases id
      · have hsome : (d.openOrders.register? id).isSome = true := by
          rw [Option.isSome_iff_ne_none, ne_eq, hnone]
          exact hm
        rw [hids] at hm ho
        simp [answer, Plain.answer, Shows, hr, hm, ho, hsome, hlog, Entry.record?]
      · have hsome : d.openOrders.register? id = none := hnone.mpr hm
        rw [hids] at hm
        simp [answer, Plain.answer, Shows, hr, hm, hids, hsome, hlog, Entry.record?]
  | take =>
      cases ht : d.openOrders.take? with
      | none =>
          have hnil := (d.openOrders.take?_eq_none_iff).mp ht
          rw [hids] at hnil
          simp [answer, pop, Plain.answer, Shows, ht, hids, hnil, hlog]
      | some taken =>
          have hcons := OpenOrders.toList_of_take? ht
          rw [hids] at hcons
          simp [answer, pop, Plain.answer, Shows, ht, hcons, hlog, Entry.record?]
  | size =>
      have hsize := d.openOrders.size_eq_length
      rw [hids] at hsize
      exact ⟨congrArg Reply.size hsize, hids, hlog⟩
  | isEmpty =>
      have hempty := d.openOrders.isEmpty_iff
      rw [hids] at hempty
      exact ⟨congrArg Reply.isEmpty (Bool.eq_iff_iff.mpr (by simpa using hempty)), hids, hlog⟩

end Desk

open OpenOrders in
/-- From no open orders on, a desk and a list of ids give the same replies and the same warnings to every
sequence of requests. After it the index of the desk has the ids of the list, which has each of them once, and an
id is accepted if and only if it was taken after each time that it was accepted. -/
theorem openOrders_refine_list (symbol : String) (draws : Draws) (requests : List OpenOrders.Request) :
    let start : Desk := { symbol, draws }
    let desk := (answerAll Desk.answer start requests).2
    let dialogue := (answerAll Desk.answer start requests).1
    let plain := (answerAll Plain.answer {} requests).2
    dialogue = (answerAll Plain.answer {} requests).1 ∧ desk.openOrders.toList = plain.ids ∧
      (∀ complaint, desk.journal.log complaint = plain.log) ∧ (∀ id, id ∈ desk.openOrders.index ↔ id ∈ plain.ids) ∧ plain.ids.Nodup ∧
      ∀ id, (desk.answer (.register id)).1 = .registered true ↔
        ∀ before later, dialogue = before ++ (.register id, .registered true) :: later →
          (.take, .taken (some id)) ∈ later := by
  intro start desk dialogue plain
  obtain ⟨hdialogue, hids, hlog⟩ :=
    answerAll_simulates Desk.answer Desk.answer_shows (show start.Shows {} from ⟨rfl, fun _ => rfl⟩) requests
  have hkept := Plain.answerAll_kept requests
  refine ⟨hdialogue, hids, hlog, ?_, hkept.nodup, ?_⟩
  · intro id
    rw [desk.openOrders.mem_index id]
    exact (congrArg (id ∈ ·) hids).to_iff
  · intro id
    have hheld : id ∈ plain.ids ↔ Held id dialogue := by
      rw [show dialogue = _ from hdialogue]
      exact hkept.mem_ids id
    have hreply : (desk.answer (.register id)).1 = .registered true ↔ id ∉ plain.ids := by
      rw [(desk.answer_shows plain (.register id) ⟨hids, hlog⟩).1]
      by_cases hm : id ∈ plain.ids <;> simp [Plain.answer, hm]
    rw [hreply, hheld, Held]
    simp only [not_exists, not_and, Classical.not_not]

end OrderBench
