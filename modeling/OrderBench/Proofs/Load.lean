import OrderBench.Proofs.Timeline
import Mathlib.Algebra.Order.BigOperators.Group.List
import Mathlib.Algebra.Order.Ring.Nat
import Mathlib.Data.List.MinMax
import Mathlib.Tactic.Simps.Basic

/-!
The time that a phase takes. While a task waits no permit is idle, so the moments at which the permits come free make
up the latencies of the calls so far; this bounds the length of a phase by the work and by the longest call.
-/
namespace OrderBench

open Phase (Move begun)

namespace Tally

/-- What the service takes for the calls of tasks that start one after the other, nothing for a task without one. -/
def latencies (venue : Venue) (t : Tally) (calls : List (Option Call)) : List Nat :=
  (t.replies venue calls).map fun answer => (answer.map Answer.latency).getD 0

variable {venue : Venue} {t : Tally} {calls : List (Option Call)}

theorem length_latencies : (latencies venue t calls).length = calls.length := by
  rw [latencies, List.length_map, length_replies]

theorem latencies_none : latencies venue t (calls ++ [none]) = latencies venue t calls ++ [0] := by
  rw [latencies, replies_append, List.map_append]
  rfl

theorem latencies_some (call : Call) : latencies venue t (calls ++ [some call]) =
    latencies venue t calls ++ [(venue ((t.after calls).count call).1 call).latency] := by
  rw [latencies, replies_append, List.map_append]
  rfl

end Tally

/-! The agenda. -/

theorem Due.insert_sorted (a : Due) {l : List Due} (h : l.Pairwise (·.time ≤ ·.time)) :
    (a.insert l).Pairwise (·.time ≤ ·.time) := by
  induction l with
  | nil => exact List.pairwise_singleton _ _
  | cons b l ih =>
      obtain ⟨hb, hl⟩ := List.pairwise_cons.mp h
      by_cases hba : b.before a
      · have hle : b.time ≤ a.time := by
          simp only [before, Bool.or_eq_true, Bool.and_eq_true, decide_eq_true_eq] at hba
          omega
        rw [insert, if_pos hba, List.pairwise_cons]
        refine ⟨?_, ih hl⟩
        intro c hc
        rcases List.mem_cons.mp ((insert_perm a l).mem_iff.mp hc) with rfl | hc
        · exact hle
        · exact hb c hc
      · have hle : a.time ≤ b.time := by
          simp only [before, Bool.or_eq_true, Bool.and_eq_true, decide_eq_true_eq] at hba
          omega
        rw [insert, if_neg hba, List.pairwise_cons]
        refine ⟨?_, h⟩
        intro c hc
        rcases List.mem_cons.mp hc with rfl | hc
        · exact hle
        · exact hle.trans (hb c hc)

/-! Bounds on a time. -/

def longest (latencies : List Nat) : Nat := latencies.foldr max 0

theorem le_longest {ls : List Nat} {l : Nat} (h : l ∈ ls) : l ≤ longest ls := List.le_max_of_le h (Nat.le_refl l)

theorem longest_le {ls : List Nat} {time : Nat} (h : ∀ l ∈ ls, l ≤ time) : longest ls ≤ time :=
  List.max_le_of_forall_le ls time h

/-- The time in which so many permits do work of the given lengths in turn, none of them idle while work waits. -/
structure WorkConserving (permits : Nat) (latencies : List Nat) (time : Nat) : Prop where
  longest_le : longest latencies ≤ time
  sum_le : latencies.sum ≤ permits * time
  le_sum : permits * time ≤ latencies.sum + (permits - 1) * longest latencies
  serial : permits = 1 → time = latencies.sum
  parallel : latencies.length ≤ permits → time = longest latencies

namespace Timeline

variable {venue : Venue}

@[simps]
def send (t : Timeline) (call : Call) (desk : Desk) (tally : Tally) (peak : Nat) (due : Due) : Timeline :=
  { t with
    phase := t.phase.send call desk
    tally
    peak
    agenda := due.insert t.agenda }

@[simps]
def settle (t : Timeline) (call : Call) (due : Due) (agenda : List Due) : Timeline :=
  { t with
    phase := t.phase.settle due.index call due.answer
    agenda
    now := max t.now due.time }

def moments (t : Timeline) : List Nat := t.now :: t.agenda.map Due.time

/-- The moments at which the permits come free, summed up; those that are free have come free by now. -/
def load (t : Timeline) : Nat := t.phase.free * t.now + (t.agenda.map Due.time).sum

section
variable {t : Timeline} {call : Call} {desk : Desk} {tally : Tally} {peak l : Nat} {due : Due} {agenda : List Due}

theorem mem_moments_send (hd : due.time = t.now + l) {x : Nat} :
    x ∈ (t.send call desk tally peak due).moments ↔ x = t.now + l ∨ x ∈ t.moments := by
  rw [moments, send_agenda, send_now, List.mem_cons, ((Due.insert_perm due t.agenda).map Due.time).mem_iff,
    List.map_cons, List.mem_cons, hd, moments, List.mem_cons]
  exact or_left_comm

theorem load_send (hf : 0 < t.phase.free) (hd : due.time = t.now + l) :
    (t.send call desk tally peak due).load = t.load + l := by
  have hnow : t.phase.free * t.now = (t.phase.free - 1) * t.now + t.now := by
    rw [← Nat.succ_mul, Nat.succ_eq_add_one, Nat.sub_add_cancel hf]
  rw [load, send_agenda, send_now, send_phase, Phase.send_free, ((Due.insert_perm due t.agenda).map Due.time).sum_eq,
    List.map_cons, List.sum_cons, hd, load, hnow]
  omega

theorem moments_settle (ha : t.agenda = due :: agenda) (hnow : t.now ≤ due.time) :
    (t.settle call due agenda).moments = t.moments.tail := by
  rw [moments, moments, settle_agenda, settle_now, Nat.max_eq_right hnow, ha]
  rfl

theorem load_settle (hnow : t.now ≤ due.time) : (t.settle call due agenda).load =
    t.phase.free * due.time + (due.time + (agenda.map Due.time).sum) := by
  rw [load, settle_agenda, settle_now, settle_phase, Phase.settle_free, Nat.max_eq_right hnow, Nat.succ_mul,
    Nat.add_assoc]

end

/-- A timeline after moves of its phase, with the latencies of the tasks that have started. -/
structure Loaded (permits start : Nat) (latencies : List Nat) (t : Timeline) : Prop where
  sorted : t.agenda.Pairwise (·.time ≤ ·.time)
  start_le : start ≤ t.now
  due : ∀ due ∈ t.agenda, t.now ≤ due.time
  shared : t.agenda.length + t.phase.free = permits
  le_load : permits * start + latencies.sum ≤ t.load
  /-- While a task waits, no permit has been idle. -/
  load_eq : t.phase.started < t.phase.total → t.load = permits * start + latencies.sum
  covered : ∀ l ∈ latencies, ∃ x ∈ t.moments, start + l ≤ x
  bounded : ∀ longest, (∀ l ∈ latencies, l ≤ longest) → ∀ x ∈ t.moments,
    permits * x ≤ permits * start + latencies.sum + (permits - 1) * longest
  /-- With a permit for each task, all of them start at once. -/
  unlimited : t.phase.total ≤ permits → (t.phase.started < t.phase.total → t.now = start) ∧
    ∀ longest, (∀ l ∈ latencies, l ≤ longest) → ∀ x ∈ t.moments, x ≤ start + longest

theorem opening_loaded {t₀ : Timeline} {desk : Desk} {task : Task} {total permits : Nat}
    (hp : t₀.phase = .opening desk task total permits) (ha : t₀.agenda = []) : Loaded permits t₀.now [] t₀ where
  sorted := by rw [ha]; exact .nil
  start_le := Nat.le_refl _
  due := by simp [ha]
  shared := by rw [ha, hp]; exact Nat.zero_add permits
  le_load := by simp [load, ha, hp, Phase.opening]
  load_eq _ := by simp [load, ha, hp, Phase.opening]
  covered := nofun
  bounded longest _ x hx := by
    rw [moments, ha] at hx
    rw [List.mem_singleton.mp hx]
    exact Nat.le_add_right _ _
  unlimited _ := by
    refine ⟨fun _ => rfl, ?_⟩
    intro longest _ x hx
    rw [moments, ha] at hx
    rw [List.mem_singleton.mp hx]
    exact Nat.le_add_right _ _

/-- The permits that are free or taken now come free no earlier. -/
theorem Loaded.mul_now_le {permits start : Nat} {ls : List Nat} {t : Timeline} (hl : Loaded permits start ls t) :
    permits * t.now ≤ t.load := by
  have hsum := List.card_nsmul_le_sum (t.agenda.map Due.time) t.now (by
    intro x hx
    obtain ⟨due, hd, rfl⟩ := List.mem_map.mp hx
    exact hl.due due hd)
  rw [List.length_map] at hsum
  rw [load, ← hl.shared, Nat.add_mul, Nat.add_comm]
  exact Nat.add_le_add_left hsum _

theorem Loaded.skip {permits start : Nat} {ls : List Nat} {t : Timeline} (hl : Loaded permits start ls t)
    (hs : t.phase.started < t.phase.total) (desk : Desk) :
    Loaded permits start (ls ++ [0]) { t with phase := t.phase.skip desk } := by
  have hsum : (ls ++ [0]).sum = ls.sum := by simp
  refine ⟨hl.sorted, hl.start_le, hl.due, hl.shared, ?_, ?_, ?_, ?_, ?_⟩
  · rw [hsum]
    exact hl.le_load
  · intro _
    rw [hsum]
    exact hl.load_eq hs
  · intro l hm
    rcases List.mem_append.mp hm with hm | hm
    · exact hl.covered l hm
    · rw [List.mem_singleton.mp hm]
      exact ⟨t.now, List.mem_cons_self .., hl.start_le⟩
  · intro longest h
    rw [hsum]
    exact hl.bounded longest (List.forall_mem_append.mp h).1
  · intro htotal
    obtain ⟨hnow, hlong⟩ := hl.unlimited htotal
    exact ⟨fun _ => hnow hs, fun longest h => hlong longest (List.forall_mem_append.mp h).1⟩

theorem mul_le_add_pred_mul {permits l longest : Nat} (hpos : 0 < permits) (h : l ≤ longest) :
    permits * l ≤ l + (permits - 1) * longest := by
  obtain ⟨k, rfl⟩ := Nat.exists_eq_add_of_lt hpos
  rw [Nat.zero_add, Nat.succ_mul, Nat.add_sub_cancel, Nat.add_comm]
  exact Nat.add_le_add_left (Nat.mul_le_mul_left k h) l

theorem Loaded.send {permits start : Nat} {ls : List Nat} {t : Timeline} (hl : Loaded permits start ls t)
    (hs : t.phase.started < t.phase.total) (hf : 0 < t.phase.free) (call : Call) (desk : Desk) (tally : Tally)
    (peak : Nat) {due : Due} {l : Nat} (hd : due.time = t.now + l) :
    Loaded permits start (ls ++ [l]) (t.send call desk tally peak due) := by
  have hperm := Due.insert_perm due t.agenda
  have hsum : (ls ++ [l]).sum = ls.sum + l := by simp
  refine ⟨Due.insert_sorted due hl.sorted, hl.start_le, ?_, ?_, ?_, ?_, ?_, ?_, ?_⟩
  · intro other ho
    rcases List.mem_cons.mp (hperm.mem_iff.mp ho) with rfl | ho
    · exact hd ▸ Nat.le_add_right _ _
    · exact hl.due other ho
  · have := hl.shared
    rw [send_agenda, send_phase, Phase.send_free, hperm.length_eq, List.length_cons]
    omega
  · rw [load_send hf hd, hsum, ← Nat.add_assoc]
    exact Nat.add_le_add_right hl.le_load l
  · intro _
    rw [load_send hf hd, hsum, ← Nat.add_assoc, hl.load_eq hs]
  · intro k hk
    simp only [mem_moments_send hd]
    rcases List.mem_append.mp hk with hk | hk
    · obtain ⟨x, hx, hle⟩ := hl.covered k hk
      exact ⟨x, .inr hx, hle⟩
    · rw [List.mem_singleton.mp hk]
      exact ⟨t.now + l, .inl rfl, Nat.add_le_add_right hl.start_le l⟩
  · intro longest h x hx
    obtain ⟨hle, hlast⟩ := List.forall_mem_append.mp h
    rw [hsum]
    rcases (mem_moments_send hd).mp hx with rfl | hx
    · -- no permit comes free before this call starts, and the others do no more than the longest call after that
      have hnow := hl.mul_now_le
      have hmul := mul_le_add_pred_mul (hl.shared ▸ Nat.add_pos_right _ hf : 0 < permits)
        (hlast l (List.mem_singleton_self l))
      rw [hl.load_eq hs] at hnow
      rw [Nat.mul_add]
      omega
    · exact (hl.bounded longest hle x hx).trans (by omega)
  · intro htotal
    obtain ⟨hnow, hlong⟩ := hl.unlimited htotal
    refine ⟨fun _ => hnow hs, ?_⟩
    intro longest h x hx
    obtain ⟨hle, hlast⟩ := List.forall_mem_append.mp h
    rcases (mem_moments_send hd).mp hx with rfl | hx
    · rw [hnow hs]
      exact Nat.add_le_add_left (hlast l (List.mem_singleton_self l)) start
    · exact hlong longest hle x hx

/-- Where a task waits, the call that ends was due or no permit was free: no permit has been idle. -/
theorem Loaded.settle {permits start : Nat} {ls : List Nat} {t : Timeline} (hl : Loaded permits start ls t)
    {due : Due} {agenda : List Due} (ha : t.agenda = due :: agenda) (hle : t.agenda.length ≤ t.phase.started)
    (hidle : t.phase.started < t.phase.total → due.time ≤ t.now ∨ t.phase.free = 0) (call : Call) :
    Loaded permits start ls (t.settle call due agenda) := by
  have hnow : t.now ≤ due.time := hl.due due (ha ▸ List.mem_cons_self ..)
  have hsorted := List.pairwise_cons.mp (ha ▸ hl.sorted)
  have hmoments {x : Nat} (hx : x ∈ (t.settle call due agenda).moments) : x ∈ t.moments :=
    List.mem_of_mem_tail (moments_settle ha hnow ▸ hx)
  have hload : t.load = t.phase.free * t.now + (due.time + (agenda.map Due.time).sum) := by
    rw [load, ha, List.map_cons, List.sum_cons]
  refine ⟨hsorted.2, hl.start_le.trans (Nat.le_max_left _ _), ?_, ?_, ?_, ?_, ?_, ?_, ?_⟩
  · intro other ho
    rw [settle_now, Nat.max_eq_right hnow]
    exact hsorted.1 other ho
  · rw [← hl.shared, ha, List.length_cons, settle_agenda, settle_phase, Phase.settle_free]
    exact (Nat.add_right_comm _ 1 _).symm
  · refine hl.le_load.trans ?_
    rw [hload, load_settle hnow]
    exact Nat.add_le_add_right (Nat.mul_le_mul_left _ hnow) _
  · intro hs
    rw [← hl.load_eq hs, hload, load_settle hnow]
    rcases hidle hs with hd | hfree
    · rw [Nat.le_antisymm hnow hd]
    · rw [hfree, Nat.zero_mul, Nat.zero_mul]
  · intro l hm
    obtain ⟨x, hx, hlx⟩ := hl.covered l hm
    rw [moments_settle ha hnow]
    rw [moments, List.mem_cons] at hx
    rcases hx with rfl | hx
    · have hmem : due.time ∈ t.moments.tail := by
        rw [moments, ha]
        exact List.mem_cons_self ..
      exact ⟨due.time, hmem, hlx.trans hnow⟩
    · exact ⟨x, hx, hlx⟩
  · exact fun longest h x hx => hl.bounded longest h x (hmoments hx)
  · intro htotal
    obtain ⟨hstart, hlong⟩ := hl.unlimited htotal
    refine ⟨?_, fun longest h x hx => hlong longest h x (hmoments hx)⟩
    intro hs
    rcases hidle hs with hd | hfree
    · rw [← hstart hs]
      exact Nat.max_eq_left hd
    · -- a permit for each task, and one task waits: some permit is free
      have hall : t.agenda.length = permits := by rw [← hl.shared, hfree, Nat.add_zero]
      exact absurd (Nat.lt_of_lt_of_le hs htotal) (Nat.not_lt_of_le (hall ▸ hle))

/-! Along a timeline. -/

/-- All that an event does: a task starts, without a call or with one, or the first call of the agenda ends. -/
theorem Follows.step_cases {t₀ t u : Timeline} {ms : List Move} (hf : Follows venue t₀ ms t)
    (h : t.step? venue = some u) : ∃ m, Follows venue t₀ (ms ++ [m]) u ∧
      ((∃ desk, m = .start t.now none ∧ t.phase.started < t.phase.total ∧ 0 < t.phase.free ∧
          u = { t with phase := t.phase.skip desk }) ∨
        (∃ call desk tally peak due, m = .start t.now (some call) ∧ t.phase.started < t.phase.total ∧
          0 < t.phase.free ∧
          due.time = t.now + (venue ((t₀.tally.after (begun ms)).count call).1 call).latency ∧
          u = t.send call desk tally peak due) ∨
        ∃ call due agenda, m = .finish due.index call due.answer ∧ t.agenda = due :: agenda ∧
          (t.phase.started < t.phase.total → due.time ≤ t.now ∨ t.phase.free = 0) ∧
          u = t.settle call due agenda) := by
  obtain ⟨hs, -⟩ | ⟨due, agenda, ha, hs, hidle⟩ := step?_cases h
  · obtain ⟨p, hp, rfl⟩ | ⟨call, p, hp, rfl⟩ := startNext_some hs
    · refine ⟨_, hf.skip hp, .inl ?_⟩
      obtain ⟨hlt, hfree, desk, -, rfl⟩ := Phase.start_none hp
      exact ⟨desk, rfl, hlt, hfree, rfl⟩
    · refine ⟨_, hf.send hp _, .inr (.inl ?_)⟩
      obtain ⟨hlt, hfree, desk, -, rfl⟩ := Phase.start_some hp
      exact ⟨call, desk, _, _, _, rfl, hlt, hfree, by rw [hf.tally], rfl⟩
  · obtain ⟨p, hp, rfl⟩ := finishNext_some hs
    obtain ⟨call, hin, rfl⟩ := Phase.finish_some hp
    exact ⟨_, hf.settle ha hin hp _, .inr (.inr ⟨call, due, agenda, rfl, ha,
      fun hw => hidle.imp_right fun hnone => free_of_startNext hnone hw, rfl⟩)⟩

theorem step_loaded {t₀ t u : Timeline} {ms : List Move} {permits : Nat} (h : t.step? venue = some u)
    (hf : Follows venue t₀ ms t) (hl : Loaded permits t₀.now (t₀.tally.latencies venue (begun ms)) t) :
    ∃ m, Follows venue t₀ (ms ++ [m]) u ∧ Loaded permits t₀.now (t₀.tally.latencies venue (begun (ms ++ [m]))) u := by
  obtain ⟨m, hfu, hm⟩ := hf.step_cases h
  refine ⟨m, hfu, ?_⟩
  obtain ⟨desk, rfl, hlt, -, rfl⟩ | ⟨call, desk, tally, peak, due, rfl, hlt, hfree, hd, rfl⟩ |
    ⟨call, due, agenda, rfl, ha, hidle, rfl⟩ := hm
  · rw [Phase.begun_append, Phase.begun_start, Tally.latencies_none]
    exact hl.skip hlt desk
  · rw [Phase.begun_append, Phase.begun_start, Tally.latencies_some]
    exact hl.send hlt hfree call desk tally peak hd
  · rw [Phase.begun_append, Phase.begun_finish, List.append_nil]
    exact hl.settle ha (hf.length_agenda ▸ hf.sound.length_inFlight_le) hidle call

theorem leads_loaded {t₀ t : Timeline} {permits : Nat} (h : Leads venue t₀ t) (h₀ : Follows venue t₀ [] t₀)
    (hl₀ : Loaded permits t₀.now [] t₀) :
    ∃ ms, Follows venue t₀ ms t ∧ Loaded permits t₀.now (t₀.tally.latencies venue (begun ms)) t := by
  induction h with
  | refl => exact ⟨[], h₀, hl₀⟩
  | tail _ hs ih =>
      obtain ⟨ms, hf, hl⟩ := ih
      obtain ⟨m, hm⟩ := step_loaded hs hf hl
      exact ⟨_, hm⟩

/-- When all calls have ended, all permits have come free. -/
theorem Loaded.workConserving {permits start : Nat} {ls : List Nat} {t : Timeline} (hl : Loaded permits start ls t)
    (ha : t.agenda = []) (hlen : ls.length = t.phase.total) : WorkConserving permits ls (t.now - start) := by
  obtain ⟨time, htime⟩ := Nat.exists_eq_add_of_le hl.start_le
  have hfree : t.phase.free = permits := by
    have := hl.shared
    rwa [ha, List.length_nil, Nat.zero_add] at this
  have hmem : t.now ∈ t.moments := List.mem_cons_self ..
  have hlongest : longest ls ≤ time := by
    apply longest_le
    intro l hm
    obtain ⟨x, hx, hle⟩ := hl.covered l hm
    rw [moments, ha] at hx
    rw [List.mem_singleton.mp hx, htime] at hle
    exact Nat.le_of_add_le_add_left hle
  have hsum : ls.sum ≤ permits * time := by
    have := hl.le_load
    rw [load, ha, hfree, htime, Nat.mul_add] at this
    simp only [List.map_nil, List.sum_nil] at this
    omega
  have hbound : permits * time ≤ ls.sum + (permits - 1) * longest ls := by
    have := hl.bounded (longest ls) (fun l => le_longest) t.now hmem
    rw [htime, Nat.mul_add] at this
    omega
  rw [htime, Nat.add_sub_cancel_left]
  refine ⟨hlongest, hsum, hbound, ?_, ?_⟩
  · rintro rfl
    omega
  · intro hle
    have := (hl.unlimited (hlen ▸ hle)).2 (longest ls) (fun l => le_longest) t.now hmem
    omega

theorem run_workConserving (venue : Venue) (t₀ : Timeline) {desk : Desk} {task : Task} {total permits : Nat}
    (hp : t₀.phase = .opening desk task total permits) (ha : t₀.agenda = []) (hpos : 0 < permits) :
    ∃ ms, Follows venue t₀ ms (t₀.run venue) ∧ (t₀.run venue).phase.Ended ∧ t₀.now ≤ (t₀.run venue).now ∧
      WorkConserving permits (t₀.tally.latencies venue (begun ms)) ((t₀.run venue).now - t₀.now) := by
  obtain ⟨-, -, he, hleads⟩ := run_ends venue t₀ hp ha hpos
  obtain ⟨ms, hf, hl⟩ := leads_loaded hleads (opening_follows hp ha) (opening_loaded hp ha)
  have hagenda : (t₀.run venue).agenda = [] := by
    have := hf.agenda
    rw [he.2] at this
    exact List.map_eq_nil_iff.mp this.eq_nil
  refine ⟨ms, hf, he, hl.start_le, hl.workConserving hagenda ?_⟩
  rw [Tally.length_latencies, hf.told.started, he.1]

end Timeline

end OrderBench
