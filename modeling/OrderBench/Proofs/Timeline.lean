import OrderBench.Timeline
import OrderBench.Proofs.Tasks
import Mathlib.Logic.Relation

/-!
A timeline is one order in which the calls of a phase can end: each of its events is a move of the phase,
the answers are those of the service, and it stops only when the phase has ended.
-/
namespace OrderBench

namespace Tally

/-- How many calls of each kind were made after some more tasks have started. -/
def after (t : Tally) (calls : List (Option Call)) : Tally :=
  calls.foldl (fun t call => (call.map fun c => (t.count c).2).getD t) t

/-- What a service answers to the calls of tasks that start one after the other. -/
def replies (venue : Venue) : Tally → List (Option Call) → List (Option Answer)
  | _, [] => []
  | t, none :: calls => none :: replies venue t calls
  | t, some call :: calls => some (venue (t.count call).1 call) :: replies venue (t.count call).2 calls

theorem length_replies (venue : Venue) (t : Tally) (calls : List (Option Call)) :
    (replies venue t calls).length = calls.length := by
  induction calls generalizing t with
  | nil => rfl
  | cons call calls ih => cases call <;> simp [replies, ih]

theorem replies_append (venue : Venue) (t : Tally) (calls more : List (Option Call)) :
    replies venue t (calls ++ more) = replies venue t calls ++ replies venue (t.after calls) more := by
  induction calls generalizing t with
  | nil => rfl
  | cons call calls ih => cases call <;> simp [replies, ih, after]

theorem replies_place (venue : Venue) (t : Tally) (orders : List OrderRequest) :
    t.replies venue (orders.map (some ∘ Call.place)) =
      orders.mapIdx fun i order => some (venue (t.placed + i + 1) (.place order)) := by
  induction orders generalizing t with
  | nil => rfl
  | cons order orders ih =>
      rw [List.map_cons, List.mapIdx_cons, Function.comp_apply, replies, ih]
      congr 2
      funext i other
      simp only [count, Nat.add_assoc, Nat.add_comm 1]

theorem replies_keep {venue : Venue} {t : Tally} {calls : List (Option Call)} {i : Nat} {a : Option Answer}
    (more : List (Option Call)) (h : (replies venue t calls)[i]? = some a) :
    (replies venue t (calls ++ more))[i]? = some a := by
  rw [replies_append, List.getElem?_append_left (List.getElem?_eq_some_iff.mp h).1, h]

/-- How many of the tasks make a placement. -/
def placements (calls : List (Option Call)) : Nat := calls.countP fun call => call.any (·.kind = .place)

theorem placements_append (calls more : List (Option Call)) :
    placements (calls ++ more) = placements calls + placements more := List.countP_append

theorem placements_le_length (calls : List (Option Call)) : placements calls ≤ calls.length := List.countP_le_length

/-- The placements before a task that makes one, and this one, are among those before a later task. -/
theorem placements_take_lt {calls : List (Option Call)} {i j : Nat} {order : OrderRequest}
    (hb : calls[i]? = some (some (.place order))) (hij : i < j) :
    placements (calls.take i) < placements (calls.take j) := by
  have hnext : placements (calls.take (i + 1)) = placements (calls.take i) + 1 := by
    rw [List.take_add_one, hb, placements_append]
    rfl
  have hle : placements (calls.take (i + 1)) ≤ placements (calls.take j) :=
    (List.take_sublist_take_left hij).countP_le
  omega

theorem placements_take_lt_placements {calls : List (Option Call)} {i : Nat} {order : OrderRequest}
    (hb : calls[i]? = some (some (.place order))) : placements (calls.take i) < placements calls := by
  have hlt := placements_take_lt hb (List.getElem?_eq_some_iff.mp hb).1
  rwa [List.take_length] at hlt

theorem after_placed (t : Tally) (calls : List (Option Call)) :
    (t.after calls).placed = t.placed + placements calls := by
  induction calls generalizing t with
  | nil => rfl
  | cons call calls ih =>
      rcases call with _ | order | id
      · exact ih t
      · have hcons : placements (some (.place order) :: calls) = placements calls + 1 := List.countP_cons_of_pos rfl
        rw [hcons, Nat.add_comm (placements calls), ← Nat.add_assoc]
        exact ih _
      · exact ih _

theorem replies_getElem? (venue : Venue) (t : Tally) (calls : List (Option Call)) (i : Nat) :
    (t.replies venue calls)[i]? =
      calls[i]?.map (·.map fun call => venue ((t.after (calls.take i)).count call).1 call) := by
  induction calls generalizing t i with
  | nil => rfl
  | cons call calls ih =>
      cases i with
      | zero => cases call <;> rfl
      | succ i => cases call <;> exact ih _ i

theorem after_append (t : Tally) (calls more : List (Option Call)) :
    t.after (calls ++ more) = (t.after calls).after more := List.foldl_append

end Tally

theorem Due.insert_perm (a : Due) (l : List Due) : (a.insert l).Perm (a :: l) := by
  induction l with
  | nil => exact .refl _
  | cons b l ih =>
      simp only [insert]
      split
      · exact (ih.cons b).trans (.swap a b l)
      · exact .refl _

namespace Timeline

open Phase (Move begun)

variable {venue : Venue}

/-! Events. -/

theorem startNext_some {t u : Timeline} (h : t.startNext venue = some u) :
    (∃ p, t.phase.start t.now = some (none, p) ∧ u = { t with phase := p }) ∨
      ∃ call p, t.phase.start t.now = some (some call, p) ∧
        u = { t with
          phase := p
          tally := (t.tally.count call).2
          peak := max t.peak p.inFlight.length
          agenda := Due.insert ⟨t.now + (venue (t.tally.count call).1 call).latency, t.phase.started,
            venue (t.tally.count call).1 call⟩ t.agenda } := by
  obtain ⟨⟨call, p⟩, hs, rfl⟩ := Option.map_eq_some_iff.mp h
  cases call with
  | none => exact .inl ⟨p, hs, rfl⟩
  | some call => exact .inr ⟨call, p, hs, rfl⟩

theorem exists_startNext (venue : Venue) (t : Timeline) (hs : t.phase.started < t.phase.total)
    (hf : 0 < t.phase.free) : ∃ u, t.startNext venue = some u := by
  obtain ⟨call, p, hp⟩ := t.phase.exists_start t.now hs hf
  rw [startNext, hp]
  exact ⟨_, rfl⟩

theorem free_of_startNext {t : Timeline} (h : t.startNext venue = none) (hs : t.phase.started < t.phase.total) :
    t.phase.free = 0 := by
  by_contra hne
  obtain ⟨u, hu⟩ := t.exists_startNext venue hs (Nat.pos_of_ne_zero hne)
  rw [h] at hu
  cases hu

theorem finishNext_some {t u : Timeline} {due : Due} {agenda : List Due} (h : t.finishNext due agenda = some u) :
    ∃ p, t.phase.finish due.index due.answer = some p ∧
      u = { t with phase := p, agenda, now := max t.now due.time } := by
  obtain ⟨p, hf, rfl⟩ := Option.map_eq_some_iff.mp h
  exact ⟨p, hf, rfl⟩

/-- The next task starts while no call is due, or the call that is next on the agenda ends: it is due,
or no task can start. -/
theorem step?_cases {t u : Timeline} (h : t.step? venue = some u) :
    (t.startNext venue = some u ∧ ∀ due agenda, t.agenda = due :: agenda → t.now < due.time) ∨
      ∃ due agenda, t.agenda = due :: agenda ∧ t.finishNext due agenda = some u ∧
        (due.time ≤ t.now ∨ t.startNext venue = none) := by
  unfold step? at h
  split at h
  · next ha => exact .inl ⟨h, by simp [ha]⟩
  · next due agenda ha =>
    split at h
    · next hd => exact .inr ⟨due, agenda, ha, h, .inl hd⟩
    · next hd =>
      cases hs : t.startNext venue with
      | none =>
          rw [hs, Option.none_or] at h
          exact .inr ⟨due, agenda, ha, h, .inr rfl⟩
      | some v =>
          rw [hs, Option.some_or] at h
          refine .inl ⟨h, ?_⟩
          intro due' agenda' ha'
          rw [ha] at ha'
          cases ha'
          exact Nat.lt_of_not_le hd

theorem step?_of_startNext {t u : Timeline} (h : t.startNext venue = some u)
    (hd : ∀ due ∈ t.agenda, t.now < due.time) : t.step? venue = some u := by
  unfold step?
  split
  · exact h
  · next due agenda ha =>
    have hlate := hd due (by simp [ha])
    rw [if_neg (Nat.not_le_of_lt hlate), h, Option.some_or]

/-- Events up to a later moment of the timeline. -/
def Leads (venue : Venue) : Timeline → Timeline → Prop :=
  Relation.ReflTransGen fun t u => t.step? venue = some u

/-- A timeline after moves of its phase. The agenda holds the ends of the calls under way, with the
answers that the service gives. -/
structure Follows (venue : Venue) (t₀ : Timeline) (ms : List Move) (t : Timeline) : Prop where
  run : Phase.Run t₀.phase ms t.phase
  sound : t.phase.Sound
  told : Phase.Told ms t.phase
  agenda : (t.agenda.map Due.index).Perm (t.phase.inFlight.map Prod.fst)
  tally : t.tally = t₀.tally.after (begun ms)
  due : ∀ due ∈ t.agenda, (t₀.tally.replies venue (begun ms))[due.index]? = some (some due.answer)
  answered : ∀ (i : Nat) (call : Call) (answer : Answer), Move.finish i call answer ∈ ms →
    (t₀.tally.replies venue (begun ms))[i]? = some (some answer)

theorem opening_follows {t₀ : Timeline} {desk : Desk} {task : Task} {total permits : Nat}
    (hp : t₀.phase = .opening desk task total permits) (ha : t₀.agenda = []) : Follows venue t₀ [] t₀ where
  run := .nil
  sound := hp ▸ Phase.opening_sound desk task total permits
  told := hp ▸ Phase.opening_told desk task total permits
  agenda := by rw [ha, hp]; exact .refl _
  tally := rfl
  due := by simp [ha]
  answered := by simp

theorem Follows.index_lt {t₀ t : Timeline} {ms : List Move} (hf : Follows venue t₀ ms t) {due : Due}
    (hd : due ∈ t.agenda) : due.index < t.phase.started := by
  have hin := hf.agenda.mem_iff.mp (List.mem_map_of_mem (f := Due.index) hd)
  exact ((hf.sound.mem_inFlight due.index).mp hin).1

theorem Follows.length_agenda {t₀ t : Timeline} {ms : List Move} (hf : Follows venue t₀ ms t) :
    t.agenda.length = t.phase.inFlight.length := by
  rw [← List.length_map, hf.agenda.length_eq, List.length_map]

theorem Follows.skip {t₀ t : Timeline} {ms : List Move} (hf : Follows venue t₀ ms t) {p : Phase}
    (hp : t.phase.start t.now = some (none, p)) :
    Follows venue t₀ (ms ++ [.start t.now none]) { t with phase := p } := by
  have hstep := Phase.Step.start hp
  obtain ⟨-, -, desk, -, rfl⟩ := Phase.start_none hp
  refine ⟨hf.run.snoc hstep, Phase.step_sound hstep hf.sound, Phase.step_told hstep hf.sound hf.told,
    hf.agenda, ?_, ?_, ?_⟩ <;> simp only [Phase.begun_append, Phase.begun_start]
  · rw [Tally.after_append, ← hf.tally]
    rfl
  · exact fun due hd => Tally.replies_keep _ (hf.due due hd)
  · intro i call answer hm
    exact Tally.replies_keep _ (hf.answered i call answer (by simpa using hm))

theorem Follows.send {t₀ t : Timeline} {ms : List Move} (hf : Follows venue t₀ ms t) {p : Phase} {call : Call}
    (hp : t.phase.start t.now = some (some call, p)) (peak : Nat) :
    Follows venue t₀ (ms ++ [.start t.now (some call)]) { t with
      phase := p
      tally := (t.tally.count call).2
      peak
      agenda := Due.insert ⟨t.now + (venue (t.tally.count call).1 call).latency, t.phase.started,
        venue (t.tally.count call).1 call⟩ t.agenda } := by
  have hstep := Phase.Step.start hp
  obtain ⟨-, -, desk, -, rfl⟩ := Phase.start_some hp
  refine ⟨hf.run.snoc hstep, Phase.step_sound hstep hf.sound, Phase.step_told hstep hf.sound hf.told,
    ?_, ?_, ?_, ?_⟩ <;> simp only [Phase.begun_append, Phase.begun_start]
  · exact ((Due.insert_perm _ _).map Due.index).trans (hf.agenda.cons _)
  · rw [Tally.after_append, ← hf.tally]
    rfl
  · intro due hd
    rcases List.mem_cons.mp ((Due.insert_perm _ _).mem_iff.mp hd) with rfl | hd
    · -- the call of this start comes after those of the tasks before it
      rw [Tally.replies_append, ← hf.tally, ← hf.told.started, ← Tally.length_replies venue t₀.tally]
      exact List.getElem?_concat_length
    · exact Tally.replies_keep _ (hf.due due hd)
  · intro i c answer hm
    exact Tally.replies_keep _ (hf.answered i c answer (by simpa using hm))

theorem Follows.settle {t₀ t : Timeline} {ms : List Move} (hf : Follows venue t₀ ms t) {p : Phase} {due : Due}
    {agenda : List Due} (ha : t.agenda = due :: agenda) {call : Call}
    (hl : t.phase.inFlight.lookup due.index = some call) (hp : t.phase.finish due.index due.answer = some p)
    (now : Nat) : Follows venue t₀ (ms ++ [.finish due.index call due.answer]) { t with phase := p, agenda, now } := by
  have hstep := Phase.Step.finish hl hp
  have hbegun : begun (ms ++ [.finish due.index call due.answer]) = begun ms := by simp
  refine ⟨hf.run.snoc hstep, Phase.step_sound hstep hf.sound, Phase.step_told hstep hf.sound hf.told,
    ?_, ?_, ?_, ?_⟩ <;> simp only [hbegun]
  · obtain ⟨_, -, rfl⟩ := Phase.finish_some hp
    obtain ⟨l₁, l₂, hl, hfil⟩ := Phase.filter_of_lookup hf.sound.nodup hl
    have hperm := hf.agenda
    rw [ha, hl, List.map_cons, List.map_append, List.map_cons] at hperm
    rw [Phase.settle_inFlight, hfil, List.map_append]
    exact (hperm.trans List.perm_middle).cons_inv
  · exact hf.tally
  · exact fun d hd => hf.due d (ha ▸ List.mem_cons_of_mem _ hd)
  · intro i c answer hm
    rcases List.mem_append.mp hm with hm | hm
    · exact hf.answered i c answer hm
    · cases List.mem_singleton.mp hm
      exact hf.due due (ha ▸ List.mem_cons_self ..)

/-- Every event is a move of the phase, and leaves less work. -/
theorem step_follows {t₀ t u : Timeline} {ms : List Move} (h : t.step? venue = some u)
    (hf : Follows venue t₀ ms t) :
    ∃ m, Phase.Step t.phase m u.phase ∧ Follows venue t₀ (ms ++ [m]) u ∧ u.work < t.work := by
  obtain ⟨hs, -⟩ | ⟨due, agenda, ha, hs, -⟩ := step?_cases h
  · obtain ⟨p, hp, rfl⟩ | ⟨call, p, hp, rfl⟩ := startNext_some hs
    · refine ⟨_, .start hp, hf.skip hp, ?_⟩
      obtain ⟨hlt, -, desk, -, rfl⟩ := Phase.start_none hp
      simp only [work, Phase.skip_total, Phase.skip_started]
      omega
    · refine ⟨_, .start hp, hf.send hp _, ?_⟩
      obtain ⟨hlt, -, desk, -, rfl⟩ := Phase.start_some hp
      simp only [work, Phase.send_total, Phase.send_started, (Due.insert_perm _ _).length_eq, List.length_cons]
      omega
  · obtain ⟨p, hp, rfl⟩ := finishNext_some hs
    obtain ⟨call, hl, he⟩ := Phase.finish_some hp
    refine ⟨_, .finish hl hp, hf.settle ha hl hp _, ?_⟩
    simp only [work, he, Phase.settle_total, Phase.settle_started, ha, List.length_cons]
    omega

theorem leads_follows {t₀ t : Timeline} (h : Leads venue t₀ t) (h₀ : Follows venue t₀ [] t₀) :
    ∃ ms, Follows venue t₀ ms t := by
  induction h with
  | refl => exact ⟨[], h₀⟩
  | tail _ hs ih =>
      obtain ⟨ms, hf⟩ := ih
      obtain ⟨m, -, hf, -⟩ := step_follows hs hf
      exact ⟨_, hf⟩

/-- While a permit is in use or free, a timeline stops only at the end of its phase. -/
theorem step?_eq_none {t₀ t : Timeline} {ms : List Move} (hf : Follows venue t₀ ms t)
    (hp : 0 < t.phase.inFlight.length + t.phase.free) (h : t.step? venue = none) : t.phase.Ended := by
  have hlen := hf.length_agenda
  cases ha : t.agenda with
  | nil =>
      rw [ha, List.length_nil] at hlen
      have hin := List.eq_nil_of_length_eq_zero hlen.symm
      refine ⟨?_, hin⟩
      by_contra hne
      have hlt := Nat.lt_of_le_of_ne hf.sound.started_le hne
      have hstart : t.startNext venue = none := by simpa only [step?, ha] using h
      rw [hin, List.length_nil, Nat.zero_add, free_of_startNext hstart hlt] at hp
      exact Nat.lt_irrefl 0 hp
  | cons due agenda =>
      have hmem : due.index ∈ t.phase.inFlight.map Prod.fst :=
        hf.agenda.mem_iff.mp (by simp [ha])
      have hfinish : t.finishNext due agenda ≠ none := by
        obtain ⟨⟨i, call⟩, hc, hi⟩ := List.mem_map.mp hmem
        obtain ⟨q, hq⟩ := hf.sound.exists_finish hc due.answer
        cases hq with
        | finish _ hq => simp [finishNext, ← hi, hq]
      simp only [step?, ha] at h
      split at h
      · exact absurd h hfinish
      · exact absurd (Option.or_eq_none_iff.mp h).2 hfinish

theorem steps_ends {t₀ t : Timeline} {ms : List Move} {n : Nat} (hf : Follows venue t₀ ms t)
    (hp : 0 < t.phase.inFlight.length + t.phase.free) (hn : t.work ≤ n) :
    ∃ ns, Follows venue t₀ ns (steps venue n t) ∧ (steps venue n t).phase.Ended ∧
      Leads venue t (steps venue n t) := by
  induction n generalizing t ms with
  | zero =>
      refine ⟨ms, hf, step?_eq_none hf hp ?_, .refl⟩
      cases hs : t.step? venue with
      | none => exact hs
      | some u =>
          obtain ⟨-, -, -, hw⟩ := step_follows hs hf
          omega
  | succ n ih =>
      cases hs : t.step? venue with
      | none =>
          simp only [steps, hs]
          exact ⟨ms, hf, step?_eq_none hf hp hs, .refl⟩
      | some u =>
          obtain ⟨m, hstep, hu, hw⟩ := step_follows hs hf
          simp only [steps, hs]
          obtain ⟨ns, hns, he, hl⟩ := ih hu (Phase.step_permits hstep hf.sound ▸ hp) (by omega)
          exact ⟨ns, hns, he, .head hs hl⟩

theorem run_ends (venue : Venue) (t₀ : Timeline) {desk : Desk} {task : Task} {total permits : Nat}
    (hp : t₀.phase = .opening desk task total permits) (ha : t₀.agenda = []) (hpos : 0 < permits) :
    ∃ ms, Follows venue t₀ ms (t₀.run venue) ∧ (t₀.run venue).phase.Ended ∧ Leads venue t₀ (t₀.run venue) :=
  steps_ends (opening_follows hp ha) (by rw [hp]; simpa [Phase.opening] using hpos) (Nat.le_refl _)

/-- Whatever moment the events have come to, they lead on to the end. -/
theorem leads_run {t₀ t : Timeline} {desk : Desk} {task : Task} {total permits : Nat}
    (hp : t₀.phase = .opening desk task total permits) (ha : t₀.agenda = []) (hpos : 0 < permits)
    (h : Leads venue t₀ t) : Leads venue t (t₀.run venue) := by
  obtain ⟨ms, hf, he, hend⟩ := run_ends venue t₀ hp ha hpos
  have hunique : Relator.RightUnique fun t u : Timeline => t.step? venue = some u :=
    fun _ _ _ hu hv => Option.some.inj (hu.symm.trans hv)
  obtain hl | hl := Relation.ReflTransGen.total_of_right_unique hunique h hend
  · exact hl
  · -- at the end there is no event
    obtain he' | ⟨u, hs, -⟩ := hl.cases_head
    · exact he' ▸ .refl
    · obtain ⟨m, hm, -⟩ := step_follows hs hf
      exact absurd hm he.not_step

/-! The most calls that were ever under way. -/

theorem step_peak {t u : Timeline} (h : t.step? venue = some u) :
    (u.peak = t.peak ∧ u.phase.inFlight.length ≤ t.phase.inFlight.length) ∨
      u.peak = max t.peak u.phase.inFlight.length := by
  obtain ⟨hs, -⟩ | ⟨due, agenda, -, hs, -⟩ := step?_cases h
  · obtain ⟨p, hp, rfl⟩ | ⟨call, p, -, rfl⟩ := startNext_some hs
    · obtain ⟨-, -, desk, -, rfl⟩ := Phase.start_none hp
      exact .inl ⟨rfl, Nat.le_refl _⟩
    · exact .inr rfl
  · obtain ⟨p, hp, rfl⟩ := finishNext_some hs
    obtain ⟨_, -, rfl⟩ := Phase.finish_some hp
    exact .inl ⟨rfl, List.length_filter_le _ _⟩

theorem leads_peak {t u : Timeline} (h : Leads venue t u) : t.peak ≤ u.peak := by
  induction h with
  | refl => exact Nat.le_refl _
  | tail _ hs ih =>
      obtain ⟨hp, -⟩ | hp := step_peak hs
      · exact hp ▸ ih
      · exact hp ▸ Nat.le_trans ih (Nat.le_max_left _ _)

theorem leads_inFlight_le_peak {t u : Timeline} (h : Leads venue t u) (ht : t.phase.inFlight.length ≤ t.peak) :
    u.phase.inFlight.length ≤ u.peak := by
  induction h with
  | refl => exact ht
  | tail _ hs ih =>
      obtain ⟨hp, hle⟩ | hp := step_peak hs
      · exact hp ▸ Nat.le_trans hle ih
      · exact hp ▸ Nat.le_max_right _ _

theorem leads_peak_le {t u : Timeline} {bound : Nat} (h : Leads venue t u)
    (hb : ∀ v, Leads venue t v → v.phase.inFlight.length ≤ bound) : u.peak ≤ max t.peak bound := by
  induction h with
  | refl => exact Nat.le_max_left _ _
  | tail hl hs ih =>
      obtain ⟨hp, -⟩ | hp := step_peak hs
      · exact hp ▸ ih
      · exact hp ▸ Nat.max_le.mpr ⟨ih, Nat.le_trans (hb _ (hl.tail hs)) (Nat.le_max_right _ _)⟩

end Timeline

end OrderBench
