import OrderBench.Proofs.Load
import Mathlib.Data.List.Sort

/-!
A phase on the clock schedules its tasks in the order of their indices: each takes the permit that comes free first, and
keeps it for the latency of its call. So the moments at which tasks start depend on the latencies and on the number of
permits alone, whatever else goes on at these moments.
-/
namespace OrderBench

open Phase (Move begun)

/-- The moments at which tasks with the given latencies start, if permits come free at the given moments, the earliest
first. -/
def starts : List Nat → List Nat → List Nat
  | _, [] => []
  | [], _ :: _ => []
  | free :: later, l :: ls => free :: starts (later.orderedInsert (· ≤ ·) (free + l)) ls

example : starts [0, 0] [3, 1, 2] = [0, 0, 1] := by decide

/-- The moments at which tasks end that start at the given ones. -/
def ends (times latencies : List Nat) : List Nat := List.zipWith (· + ·) times latencies

theorem starts_nil (free : List Nat) : starts free [] = [] := by
  cases free <;> rfl

theorem length_starts {free : List Nat} (hf : free ≠ []) (ls : List Nat) : (starts free ls).length = ls.length := by
  induction ls generalizing free with
  | nil => rw [starts_nil, List.length_nil]
  | cons l ls ih =>
      cases free with
      | nil => exact absurd rfl hf
      | cons first later =>
          have hne : later.orderedInsert (· ≤ ·) (first + l) ≠ [] := by
            rw [← List.length_pos_iff, List.orderedInsert_length]
            exact Nat.succ_pos _
          rw [starts, List.length_cons, ih hne, List.length_cons]

theorem orderedInsert_of_le {time : Nat} {free : List Nat} (h : ∀ x ∈ free, time ≤ x) :
    free.orderedInsert (· ≤ ·) time = time :: free := by
  cases free with
  | nil => rfl
  | cons first later => exact List.orderedInsert_cons_of_le (· ≤ ·) later (h first (List.mem_cons_self ..))

theorem starts_shift (d : Nat) (free ls : List Nat) :
    starts (free.map (d + ·)) ls = (starts free ls).map (d + ·) := by
  induction ls generalizing free with
  | nil => rw [starts_nil, starts_nil, List.map_nil]
  | cons l ls ih =>
      cases free with
      | nil => rfl
      | cons first later =>
          have hinsert : (later.orderedInsert (· ≤ ·) (first + l)).map (d + ·) =
              (later.map (d + ·)).orderedInsert (· ≤ ·) (d + first + l) := by
            rw [Nat.add_assoc]
            exact List.map_orderedInsert _ _ _ _ _ (fun a _ => Nat.add_le_add_iff_left.symm)
              (fun a _ => Nat.add_le_add_iff_left.symm)
          rw [List.map_cons, starts, starts, List.map_cons, ← hinsert, ih]

theorem ends_append {times latencies : List Nat} (h : times.length = latencies.length) (time l : Nat) :
    ends (times ++ [time]) (latencies ++ [l]) = ends times latencies ++ [time + l] := List.zipWith_append h

theorem ends_shift (d : Nat) (times latencies : List Nat) :
    ends (times.map (d + ·)) latencies = (ends times latencies).map (d + ·) := by
  rw [ends, ends, List.zipWith_map_left, List.map_zipWith]
  simp only [Nat.add_assoc]

theorem longest_shift (d : Nat) (ls : List Nat) : longest (d :: ls.map (d + ·)) = d + longest ls := by
  induction ls with
  | nil => exact Nat.max_zero d
  | cons l ls ih =>
      have hmax : max (d + l) (longest (d :: ls.map (d + ·))) = longest (d :: (l :: ls).map (d + ·)) :=
        max_left_comm (d + l) d (longest (ls.map (d + ·)))
      rw [← hmax, ih, Nat.add_max_add_left]
      rfl

namespace Phase

def Move.time? : Move → Option Nat
  | .start time _ => some time
  | .finish _ _ _ => none

/-- The moments at which tasks start, in the order of the tasks. -/
def startTimes (ms : List Move) : List Nat := ms.filterMap Move.time?

@[simp] theorem startTimes_append (ms ns : List Move) : startTimes (ms ++ ns) = startTimes ms ++ startTimes ns :=
  List.filterMap_append

@[simp] theorem startTimes_start (time : Nat) (call : Option Call) : startTimes [.start time call] = [time] := rfl

@[simp] theorem startTimes_finish (index : Nat) (call : Call) (answer : Answer) :
    startTimes [.finish index call answer] = [] := rfl

theorem length_startTimes (ms : List Move) : (startTimes ms).length = (begun ms).length := by
  induction ms with
  | nil => rfl
  | cons m ms ih =>
      cases m with
      | start time call => exact congrArg Nat.succ ih
      | finish => exact ih

/-- Where each task makes a call, the calls are sent at the moments at which the tasks start. -/
theorem sent_eq_zip {ms : List Move} {calls : List Call} (h : begun ms = calls.map some) :
    ms.filterMap Move.sent? = (startTimes ms).zip calls := by
  induction ms generalizing calls with
  | nil => rfl
  | cons m ms ih =>
      cases m with
      | finish index call answer => exact ih h
      | start time call =>
          cases calls with
          | nil => cases h
          | cons first calls =>
              obtain ⟨rfl, hms⟩ := List.cons.inj h
              exact congrArg ((time, first) :: ·) (ih hms)

end Phase

open Phase (startTimes)

namespace Timeline

variable {venue : Venue}

/-- The moments at which the permits come free, the earliest first; those that are free have come free by now. -/
def releases (t : Timeline) : List Nat := List.replicate t.phase.free t.now ++ t.agenda.map Due.time

theorem Loaded.releases_sorted {permits start : Nat} {ls : List Nat} {t : Timeline} (hl : Loaded permits start ls t) :
    t.releases.Pairwise (· ≤ ·) := by
  have hagenda : (t.agenda.map Due.time).Pairwise (· ≤ ·) := List.pairwise_map.mpr hl.sorted
  refine List.pairwise_append.mpr ⟨List.pairwise_replicate.mpr (.inr (Nat.le_refl _)), hagenda, ?_⟩
  intro x hx y hy
  obtain ⟨due, hd, rfl⟩ := List.mem_map.mp hy
  rw [List.eq_of_mem_replicate hx]
  exact hl.due due hd

theorem releases_of_free {t : Timeline} (hf : 0 < t.phase.free) :
    t.releases = t.now :: (List.replicate (t.phase.free - 1) t.now ++ t.agenda.map Due.time) := by
  obtain ⟨free, hfree⟩ := Nat.exists_eq_add_of_lt hf
  rw [releases, hfree, Nat.zero_add, List.replicate_succ]
  rfl

theorem releases_send {permits start l : Nat} {ls : List Nat} {t : Timeline} {call : Call} {desk : Desk} {tally : Tally}
    {peak : Nat} {due : Due} (hl : Loaded permits start ls t)
    (hu : Loaded permits start (ls ++ [l]) (t.send call desk tally peak due)) (hf : 0 < t.phase.free)
    (hd : due.time = t.now + l) : (t.send call desk tally peak due).releases =
      (List.replicate (t.phase.free - 1) t.now ++ t.agenda.map Due.time).orderedInsert (· ≤ ·) (t.now + l) := by
  have hrest := (List.pairwise_cons.mp (releases_of_free hf ▸ hl.releases_sorted)).2
  apply List.Perm.eq_of_pairwise' hu.releases_sorted (hrest.orderedInsert _ _)
  refine List.Perm.trans ?_ (List.perm_orderedInsert (· ≤ ·) _ _).symm
  rw [releases, send_agenda, send_now, send_phase, Phase.send_free, ← hd]
  exact (((Due.insert_perm due t.agenda).map Due.time).append_left _).trans List.perm_middle

/-- A call ends that was due, or for which no permit was free: the permits come free as before. -/
theorem releases_settle {t : Timeline} {call : Call} {due : Due} {agenda : List Due} (ha : t.agenda = due :: agenda)
    (hnow : t.now ≤ due.time) (hidle : due.time ≤ t.now ∨ t.phase.free = 0) :
    (t.settle call due agenda).releases = t.releases := by
  rw [releases, releases, settle_agenda, settle_now, settle_phase, Phase.settle_free, Nat.max_eq_right hnow, ha,
    List.map_cons]
  obtain hd | hfree := hidle
  · rw [Nat.le_antisymm hnow hd, List.replicate_succ', List.append_assoc]
    rfl
  · rw [hfree]
    rfl

/-- A timeline after moves of its phase, with the latencies of the tasks that have started and the moments at which they
did. -/
structure Scheduled (permits start : Nat) (latencies times : List Nat) (t : Timeline) : Prop where
  /-- The schedule of any tasks that wait goes on from the moments at which the permits come free. -/
  starts_eq : ∀ ls : List Nat, t.phase.started + ls.length ≤ t.phase.total →
    starts (List.replicate permits start) (latencies ++ ls) = times ++ starts t.releases ls
  covered : ∀ x ∈ start :: ends times latencies, ∃ y ∈ t.moments, x ≤ y
  reached : ∀ y ∈ t.moments, y ∈ start :: ends times latencies

theorem opening_scheduled {t₀ : Timeline} {desk : Desk} {task : Task} {total permits : Nat}
    (hp : t₀.phase = .opening desk task total permits) (ha : t₀.agenda = []) : Scheduled permits t₀.now [] [] t₀ where
  starts_eq ls _ := by
    rw [releases, ha, hp, List.map_nil, List.append_nil]
    rfl
  covered x hx := ⟨t₀.now, List.mem_cons_self .., Nat.le_of_eq (List.mem_singleton.mp hx)⟩
  reached y hy := by
    rw [moments, ha] at hy
    exact hy

section
variable {permits start : Nat} {latencies times : List Nat} {t : Timeline}

theorem Scheduled.next (h : Scheduled permits start latencies times t) (hlen : times.length = latencies.length)
    (hf : 0 < t.phase.free) {u : Timeline} {l : Nat} (hstarted : u.phase.started = t.phase.started + 1)
    (htotal : u.phase.total = t.phase.total)
    (hreleases : u.releases =
      (List.replicate (t.phase.free - 1) t.now ++ t.agenda.map Due.time).orderedInsert (· ≤ ·) (t.now + l))
    (hmoments : ∀ x, x ∈ u.moments ↔ x = t.now + l ∨ x ∈ t.moments) :
    Scheduled permits start (latencies ++ [l]) (times ++ [t.now]) u := by
  have hends : ∀ x, x ∈ start :: ends (times ++ [t.now]) (latencies ++ [l]) ↔
      x = t.now + l ∨ x ∈ start :: ends times latencies := by
    intro x
    rw [ends_append hlen, ← List.cons_append, List.mem_append, List.mem_singleton, or_comm]
  refine ⟨?_, ?_, ?_⟩
  · intro ls hle
    rw [hstarted, htotal] at hle
    have hstep := h.starts_eq (l :: ls) (by rw [List.length_cons]; omega)
    rw [releases_of_free hf, starts, ← hreleases] at hstep
    rw [List.append_assoc, List.append_assoc]
    exact hstep
  · intro x hx
    simp only [hmoments]
    rcases (hends x).mp hx with rfl | hx
    · exact ⟨t.now + l, .inl rfl, Nat.le_refl _⟩
    · obtain ⟨y, hy, hle⟩ := h.covered x hx
      exact ⟨y, .inr hy, hle⟩
  · intro y hy
    rw [hends]
    exact ((hmoments y).mp hy).imp_right (h.reached y)

theorem Scheduled.skip (h : Scheduled permits start latencies times t) (hlen : times.length = latencies.length)
    (hl : Loaded permits start latencies t) (hf : 0 < t.phase.free) (desk : Desk) :
    Scheduled permits start (latencies ++ [0]) (times ++ [t.now]) { t with phase := t.phase.skip desk } := by
  have hfirst := (List.pairwise_cons.mp (releases_of_free hf ▸ hl.releases_sorted)).1
  refine h.next hlen hf rfl rfl ?_ ?_
  · -- a permit that comes free now is the first again
    rw [Nat.add_zero, orderedInsert_of_le hfirst]
    exact releases_of_free hf
  · intro x
    rw [Nat.add_zero]
    exact ⟨.inr, fun hx => hx.elim (fun he => he ▸ List.mem_cons_self ..) id⟩

theorem Scheduled.send (h : Scheduled permits start latencies times t) (hlen : times.length = latencies.length)
    (hl : Loaded permits start latencies t) (hs : t.phase.started < t.phase.total) (hf : 0 < t.phase.free) (call : Call)
    (desk : Desk) (tally : Tally) (peak : Nat) {due : Due} {l : Nat} (hd : due.time = t.now + l) :
    Scheduled permits start (latencies ++ [l]) (times ++ [t.now]) (t.send call desk tally peak due) :=
  h.next hlen hf rfl rfl (releases_send hl (hl.send hs hf call desk tally peak hd) hf hd)
    fun _ => mem_moments_send hd

theorem Scheduled.settle (h : Scheduled permits start latencies times t) (hl : Loaded permits start latencies t)
    {due : Due} {agenda : List Due} (ha : t.agenda = due :: agenda)
    (hidle : t.phase.started < t.phase.total → due.time ≤ t.now ∨ t.phase.free = 0) (call : Call) :
    Scheduled permits start latencies times (t.settle call due agenda) := by
  have hnow : t.now ≤ due.time := hl.due due (ha ▸ List.mem_cons_self ..)
  have hmoments : (t.settle call due agenda).moments = t.moments.tail := moments_settle ha hnow
  refine ⟨?_, ?_, ?_⟩
  · intro ls hle
    rw [settle_phase, Phase.settle_started, Phase.settle_total] at hle
    rw [h.starts_eq ls hle]
    cases ls with
    | nil => rw [starts_nil, starts_nil]
    | cons l ls =>
        rw [List.length_cons] at hle
        rw [releases_settle ha hnow (hidle (by omega))]
  · intro x hx
    obtain ⟨y, hy, hle⟩ := h.covered x hx
    rw [hmoments]
    rcases List.mem_cons.mp hy with rfl | hy
    · have hmem : due.time ∈ t.moments.tail := by
        rw [moments, ha]
        exact List.mem_cons_self ..
      exact ⟨due.time, hmem, hle.trans hnow⟩
    · exact ⟨y, hy, hle⟩
  · intro y hy
    rw [hmoments] at hy
    exact h.reached y (List.mem_of_mem_tail hy)

end

theorem leads_scheduled {t₀ t : Timeline} {permits : Nat} (h : Leads venue t₀ t) (h₀ : Follows venue t₀ [] t₀)
    (hl₀ : Loaded permits t₀.now [] t₀) (hs₀ : Scheduled permits t₀.now [] [] t₀) :
    ∃ ms, Follows venue t₀ ms t ∧ Loaded permits t₀.now (t₀.tally.latencies venue (begun ms)) t ∧
      Scheduled permits t₀.now (t₀.tally.latencies venue (begun ms)) (startTimes ms) t := by
  induction h with
  | refl => exact ⟨[], h₀, hl₀, hs₀⟩
  | tail _ hstep ih =>
      obtain ⟨ms, hf, hl, hs⟩ := ih
      have hlen : (startTimes ms).length = (t₀.tally.latencies venue (begun ms)).length := by
        rw [Phase.length_startTimes, Tally.length_latencies]
      obtain ⟨m, hfu, hm⟩ := hf.step_cases hstep
      refine ⟨_, hfu, ?_⟩
      obtain ⟨desk, rfl, hlt, hfree, rfl⟩ | ⟨call, desk, tally, peak, due, rfl, hlt, hfree, hd, rfl⟩ |
        ⟨call, due, agenda, rfl, ha, hidle, rfl⟩ := hm
      · rw [Phase.begun_append, Phase.begun_start, Tally.latencies_none, Phase.startTimes_append]
        exact ⟨hl.skip hlt desk, hs.skip hlen hl hfree desk⟩
      · rw [Phase.begun_append, Phase.begun_start, Tally.latencies_some, Phase.startTimes_append]
        exact ⟨hl.send hlt hfree call desk tally peak hd, hs.send hlen hl hlt hfree call desk tally peak hd⟩
      · rw [Phase.begun_append, Phase.begun_finish, List.append_nil, Phase.startTimes_append, Phase.startTimes_finish,
          List.append_nil]
        exact ⟨hl.settle ha (hf.length_agenda ▸ hf.sound.length_inFlight_le) hidle call, hs.settle hl ha hidle call⟩

/-- A phase goes by its schedule, and is over when the last of its tasks has ended. -/
theorem run_scheduled (venue : Venue) (t₀ : Timeline) {desk : Desk} {task : Task} {total permits : Nat}
    (hp : t₀.phase = .opening desk task total permits) (ha : t₀.agenda = []) (hpos : 0 < permits) :
    ∃ ms, Follows venue t₀ ms (t₀.run venue) ∧ (t₀.run venue).phase.Ended ∧
      let latencies := t₀.tally.latencies venue (begun ms)
      let times := starts (List.replicate permits 0) latencies
      startTimes ms = times.map (t₀.now + ·) ∧ (t₀.run venue).now = t₀.now + longest (ends times latencies) := by
  obtain ⟨-, -, he, hleads⟩ := run_ends venue t₀ hp ha hpos
  obtain ⟨ms, hf, -, hs⟩ := leads_scheduled hleads (opening_follows hp ha) (opening_loaded hp ha)
    (opening_scheduled hp ha)
  have hagenda : (t₀.run venue).agenda = [] := by
    have := hf.agenda
    rw [he.2] at this
    exact List.map_eq_nil_iff.mp this.eq_nil
  have hmoments : (t₀.run venue).moments = [(t₀.run venue).now] := by rw [moments, hagenda]; rfl
  have htimes : startTimes ms =
      (starts (List.replicate permits 0) (t₀.tally.latencies venue (begun ms))).map (t₀.now + ·) := by
    have heq := hs.starts_eq [] (Nat.le_of_eq he.1)
    rw [List.append_nil, starts_nil, List.append_nil] at heq
    rw [← heq, ← starts_shift, List.map_replicate, Nat.add_zero]
  refine ⟨ms, hf, he, htimes, ?_⟩
  rw [← longest_shift, ← ends_shift, ← htimes]
  apply Nat.le_antisymm
  · exact le_longest (hs.reached _ (hmoments ▸ List.mem_singleton_self _))
  · apply longest_le
    intro x hx
    obtain ⟨y, hy, hle⟩ := hs.covered x hx
    rw [hmoments, List.mem_singleton] at hy
    exact hy ▸ hle

end Timeline

end OrderBench
