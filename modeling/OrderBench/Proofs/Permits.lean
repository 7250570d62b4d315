import OrderBench.Proofs.Session

/-!
The permits of a driver. In every state of every history the tasks past their permit and the free permits
make up the permits that the driver began with; no permit is idle while a task waits and time passes.
-/
namespace OrderBench

namespace Driver

def running : Driver → List Nat
  | .idle _ _ => []
  | .warming _ _ p | .measuring _ p => p.running

def waiting : Driver → Nat
  | .idle _ _ => 0
  | .warming _ _ p | .measuring _ p => p.total - p.started

def Rests : Driver → Prop
  | .idle _ _ => True
  | .warming _ _ p | .measuring _ p => p.Ended

/-- All starts that are possible have happened. -/
def Filled (d : Driver) : Prop := ∀ time call e, ¬Step d (some (.start time call)) e

structure PermitsConserved (permits : Nat) (d : Driver) : Prop where
  conserved : d.running.length + d.free = permits
  bounded : d.inFlight.length ≤ permits
  saturated : d.Filled → 0 < d.waiting → d.running.length = permits
  released : d.Rests → d.free = permits

/-- A driver whose phase is sound and shares the permits with its tasks. -/
def Sound (permits : Nat) : Driver → Prop
  | .idle _ free => free = permits
  | .warming _ _ p | .measuring _ p => p.Sound ∧ p.inFlight.length + p.free = permits

theorem opening_shares (desk : Desk) (task : Task) (total permits : Nat) :
    (Phase.opening desk task total permits).Sound ∧
      (Phase.opening desk task total permits).inFlight.length +
        (Phase.opening desk task total permits).free = permits :=
  ⟨Phase.opening_sound desk task total permits, Nat.zero_add permits⟩

theorem phase_shares {p q : Phase} {m : Phase.Move} {permits : Nat} (h : Phase.Step p m q)
    (hp : p.Sound ∧ p.inFlight.length + p.free = permits) :
    q.Sound ∧ q.inFlight.length + q.free = permits :=
  ⟨Phase.step_sound h hp.1, (Phase.step_permits h hp.1).trans hp.2⟩

theorem ended_shares {p : Phase} {permits : Nat} (he : p.Ended)
    (hp : p.Sound ∧ p.inFlight.length + p.free = permits) : p.free = permits := by
  have := hp.2
  rwa [he.2, List.length_nil, Nat.zero_add] at this

theorem step_sound {permits : Nat} {d e : Driver} {m : Option Phase.Move} (h : Step d m e)
    (hd : d.Sound permits) : e.Sound permits := by
  cases h with
  | begin | warmUp => exact hd ▸ opening_shares _ _ _ _
  | warming h | measuring h => exact phase_shares h hd
  | warm h => exact ended_shares h hd ▸ opening_shares _ _ _ _
  | finish h => exact ended_shares h hd

theorem history_sound {permits : Nat} {d e : Driver} {ms : List Phase.Move} (h : History d ms e)
    (hd : d.Sound permits) : e.Sound permits := by
  induction h with
  | nil => exact hd
  | snoc _ hs ih => exact step_sound hs ih

/-- Where a task waits and no start is possible, all permits are taken. -/
theorem running_of_filled {p : Phase} {permits : Nat} (hp : p.Sound ∧ p.inFlight.length + p.free = permits)
    (h : ∀ time call q, p.start time ≠ some (call, q)) (hw : 0 < p.total - p.started) :
    p.running.length = permits := by
  have hfree : p.free = 0 := by
    by_contra hne
    obtain ⟨call, q, hq⟩ := p.exists_start 0 (Nat.lt_of_sub_pos hw) (Nat.pos_of_ne_zero hne)
    exact h 0 call q hq
  rw [hp.1.length_running, ← hp.2, hfree, Nat.add_zero]

theorem Sound.permitsConserved {permits : Nat} {d : Driver} (hd : d.Sound permits) : PermitsConserved permits d := by
  cases d with
  | idle desk free =>
      refine ⟨?_, Nat.zero_le _, fun _ hw => absurd hw (Nat.lt_irrefl 0), fun _ => hd⟩
      exact (Nat.zero_add free).trans hd
  | warming workload total p =>
      refine ⟨hd.1.length_running ▸ hd.2, hd.2 ▸ Nat.le_add_right _ _, ?_, fun he => ended_shares he hd⟩
      exact fun hf hw => running_of_filled hd (fun time call _ hq => hf time call _ (.warming (.start hq))) hw
  | measuring workload p =>
      refine ⟨hd.1.length_running ▸ hd.2, hd.2 ▸ Nat.le_add_right _ _, ?_, fun he => ended_shares he hd⟩
      exact fun hf hw => running_of_filled hd (fun time call _ hq => hf time call _ (.measuring (.start hq))) hw

end Driver

namespace Timeline

open Phase (Move begun)

variable {venue : Venue}

/-- Every task that starts makes a call, and the call takes some time. -/
def Lingers (venue : Venue) (t : Timeline) : Prop :=
  ∀ u v, Leads venue t u → u.step? venue = some v → u.phase.started < v.phase.started →
    ∃ due ∈ v.agenda, due.index = u.phase.started ∧ u.now < due.time

theorem startNext_eq_none {t : Timeline} (h : t.startNext venue = none) (time : Nat) (call : Option Call) (q : Phase) :
    t.phase.start time ≠ some (call, q) := by
  intro hs
  have hw : t.phase.started < t.phase.total ∧ 0 < t.phase.free := by
    cases call with
    | none => exact ⟨(Phase.start_none hs).1, (Phase.start_none hs).2.1⟩
    | some call => exact ⟨(Phase.start_some hs).1, (Phase.start_some hs).2.1⟩
  obtain ⟨u, hu⟩ := t.exists_startNext venue hw.1 hw.2
  rw [h] at hu
  cases hu

/-- Time passes only when no task can start. -/
theorem startNext_of_now_lt {t u : Timeline} (h : t.step? venue = some u) (ht : t.now < u.now) :
    t.startNext venue = none := by
  obtain ⟨hs, -⟩ | ⟨due, agenda, -, hs, hd | hn⟩ := step?_cases h
  · obtain ⟨p, -, rfl⟩ | ⟨call, p, -, rfl⟩ := startNext_some hs <;> exact absurd ht (Nat.lt_irrefl _)
  · obtain ⟨p, -, rfl⟩ := finishNext_some hs
    have : max t.now due.time = t.now := Nat.max_eq_left hd
    exact absurd ht (by simp only [this]; exact Nat.lt_irrefl _)
  · exact hn

variable {t₀ : Timeline} {desk : Desk} {task : Task} {total permits : Nat}

theorem leads_shares (hp : t₀.phase = .opening desk task total permits) (ha : t₀.agenda = []) {u : Timeline}
    (h : Leads venue t₀ u) : u.phase.Sound ∧ u.phase.inFlight.length + u.phase.free = permits := by
  obtain ⟨ms, hf⟩ := leads_follows h (opening_follows hp ha)
  refine ⟨hf.sound, ?_⟩
  have := hf.run
  rw [hp] at this
  rw [Phase.run_permits this (Phase.opening_sound desk task total permits)]
  exact Nat.zero_add permits

/-- Before any time has passed, so many calls come to be under way as there are permits and tasks. -/
theorem lingers_fills (hp : t₀.phase = .opening desk task total permits) (ha : t₀.agenda = [])
    (hl : Lingers venue t₀) (k : Nat) (hk : k ≤ min permits total) :
    ∃ u, Leads venue t₀ u ∧ u.now = t₀.now ∧ u.phase.started = k ∧ u.phase.inFlight.length = k ∧
      ∀ due ∈ u.agenda, t₀.now < due.time := by
  induction k with
  | zero => exact ⟨t₀, .refl, rfl, by rw [hp]; rfl, by rw [hp]; rfl, by simp [ha]⟩
  | succ k ih =>
      obtain ⟨u, hu, hnow, hs, hin, hdue⟩ := ih (Nat.le_of_succ_le hk)
      obtain ⟨ms, hf⟩ := leads_follows hu (opening_follows hp ha)
      have hfree := (leads_shares hp ha hu).2
      have htotal : u.phase.total = total := by
        rw [(Phase.run_task hf.run).2, hp]
        rfl
      obtain ⟨v, hv⟩ := u.exists_startNext venue (by omega) (by omega)
      have hstep : u.step? venue = some v := step?_of_startNext hv (hnow ▸ hdue)
      obtain ⟨p, hp', rfl⟩ | ⟨call, p, hp', rfl⟩ := startNext_some hv
      · -- a start without a call would put nothing on the agenda
        obtain ⟨-, -, desk, -, rfl⟩ := Phase.start_none hp'
        obtain ⟨due, hd, hi, -⟩ := hl u _ hu hstep (Nat.lt_succ_self _)
        exact absurd (hf.index_lt hd) (by omega)
      · obtain ⟨-, -, desk, -, rfl⟩ := Phase.start_some hp'
        obtain ⟨due, hd, hi, hlate⟩ := hl u _ hu hstep (Nat.lt_succ_self _)
        refine ⟨_, hu.tail hstep, hnow, congrArg (· + 1) hs, congrArg (· + 1) hin, ?_⟩
        intro other ho
        rcases List.mem_cons.mp ((Due.insert_perm _ _).mem_iff.mp ho) with he | ho
        · rcases List.mem_cons.mp ((Due.insert_perm _ _).mem_iff.mp hd) with hd | hd
          · rw [he, ← hd, ← hnow]
            exact hlate
          · exact absurd (hf.index_lt hd) (by omega)
        · exact hdue other ho

/-- A phase of placements lingers if no call is answered at once. -/
theorem lingers_place (hp : t₀.phase = .opening desk .place total permits) (ha : t₀.agenda = [])
    (hv : ∀ number call, 0 < (venue number call).latency) : Lingers venue t₀ := by
  intro u v hu hs hlt
  obtain ⟨ms, hf⟩ := leads_follows hu (opening_follows hp ha)
  have htask : u.phase.task = .place := by
    rw [(Phase.run_task hf.run).1, hp]
    rfl
  obtain ⟨hs, -⟩ | ⟨due, agenda, -, hs, -⟩ := step?_cases hs
  · obtain ⟨p, hp', rfl⟩ | ⟨call, p, hp', rfl⟩ := startNext_some hs
    · obtain ⟨-, -, e, hb, -⟩ := Phase.start_none hp'
      rw [htask, Desk.begin_place] at hb
      cases hb
    · exact ⟨_, (Due.insert_perm _ _).mem_iff.mpr (List.mem_cons_self ..), rfl,
        Nat.lt_add_of_pos_right (hv _ _)⟩
  · obtain ⟨p, hp', rfl⟩ := finishNext_some hs
    obtain ⟨_, -, rfl⟩ := Phase.finish_some hp'
    exact absurd hlt (Nat.lt_irrefl _)

end Timeline

structure Session.PermitsKept (s : Session) (task : Task) (total : Nat) : Prop where
  conserved : ∀ u, Timeline.Leads s.venue (s.timeline task total) u →
    u.phase.running.length + u.phase.free = s.permits
  /-- When the clock is about to advance, a task waits only if all permits are taken. -/
  saturated : ∀ u v, Timeline.Leads s.venue (s.timeline task total) u → u.step? s.venue = some v →
    u.now < v.now → u.phase.started < u.phase.total → u.phase.running.length = s.permits
  released : (s.runPhase task total).2.permits = s.permits
  bounded : ∀ u, Timeline.Leads s.venue (s.timeline task total) u →
    u.phase.inFlight.length ≤ min s.permits total
  /-- Where all tasks make calls that take time, the bound is reached. -/
  reached : (s.timeline task total).Lingers s.venue →
    ∃ u, Timeline.Leads s.venue (s.timeline task total) u ∧ u.phase.inFlight.length = min s.permits total
  /-- All these moments lead to the one at which the phase is over, and that is what it leaves behind. -/
  ends : ∃ v, (∀ u, Timeline.Leads s.venue (s.timeline task total) u → Timeline.Leads s.venue u v) ∧ v.phase.Ended ∧
    s.runPhase task total = (v.phase.results,
      { s with permits := v.phase.free, desk := v.phase.desk, tally := v.tally, now := v.now, peak := v.peak })
  peak_bounds : s.peak ≤ (s.runPhase task total).2.peak ∧
    (s.runPhase task total).2.peak ≤ max s.peak (min s.permits total)
  peak_reached : (s.timeline task total).Lingers s.venue →
    (s.runPhase task total).2.peak = max s.peak (min s.permits total)

namespace Session

variable {s t : Session} {task : Task} {total : Nat}

theorem timeline_shares {u : Timeline} (h : Timeline.Leads s.venue (s.timeline task total) u) :
    u.phase.Sound ∧ u.phase.inFlight.length + u.phase.free = s.permits := Timeline.leads_shares rfl rfl h

theorem inFlight_le {u : Timeline} (h : Timeline.Leads s.venue (s.timeline task total) u) :
    u.phase.inFlight.length ≤ min s.permits total := by
  obtain ⟨hsound, hsum⟩ := timeline_shares h
  have hle := hsound.length_inFlight_le
  obtain ⟨ms, hf⟩ := Timeline.leads_follows h (Timeline.opening_follows rfl rfl)
  have htotal : u.phase.total = total := (Phase.run_task hf.run).2
  have := hsound.started_le
  omega

theorem exists_filled (hl : (s.timeline task total).Lingers s.venue) :
    ∃ u, Timeline.Leads s.venue (s.timeline task total) u ∧ u.phase.inFlight.length = min s.permits total := by
  obtain ⟨u, hu, -, -, hin, -⟩ := Timeline.lingers_fills rfl rfl hl _ (Nat.le_refl (min s.permits total))
  exact ⟨u, hu, hin⟩

/-- Every moment of a phase leads to what the phase leaves behind. -/
theorem leads_runPhase {u : Timeline} (hpos : 0 < s.permits) (h : Timeline.Leads s.venue (s.timeline task total) u) :
    Timeline.Leads s.venue u ((s.timeline task total).run s.venue) := Timeline.leads_run rfl rfl hpos h

theorem le_runPhase_peak (s : Session) (task : Task) (total : Nat) (hpos : 0 < s.permits) :
    s.peak ≤ (s.runPhase task total).2.peak :=
  Timeline.leads_peak (leads_runPhase (u := s.timeline task total) hpos .refl)

theorem runPhase_peak_le (s : Session) (task : Task) (total : Nat) (hpos : 0 < s.permits) :
    (s.runPhase task total).2.peak ≤ max s.peak (min s.permits total) :=
  Timeline.leads_peak_le (leads_runPhase hpos .refl) fun _ => inFlight_le

theorem runPhase_peak (hpos : 0 < s.permits) (hl : (s.timeline task total).Lingers s.venue) :
    (s.runPhase task total).2.peak = max s.peak (min s.permits total) := by
  obtain ⟨u, hu, hin⟩ := exists_filled hl
  have hnow : u.phase.inFlight.length ≤ u.peak := Timeline.leads_inFlight_le_peak hu (Nat.zero_le _)
  have hafter : u.peak ≤ (s.runPhase task total).2.peak := Timeline.leads_peak (leads_runPhase hpos hu)
  apply Nat.le_antisymm (s.runPhase_peak_le task total hpos)
  exact Nat.max_le.mpr ⟨s.le_runPhase_peak task total hpos, hin ▸ hnow.trans hafter⟩

theorem permitsKept (s : Session) (task : Task) (total : Nat) (hpos : 0 < s.permits) : s.PermitsKept task total where
  conserved u hu := by
    obtain ⟨hsound, hsum⟩ := timeline_shares hu
    rw [hsound.length_running, hsum]
  saturated u v hu hs hnow hw :=
    Driver.running_of_filled (timeline_shares hu)
      (Timeline.startNext_eq_none (Timeline.startNext_of_now_lt hs hnow)) (Nat.sub_pos_of_lt hw)
  released := by
    obtain ⟨ms, p, now, peak, hr, he, -, hp⟩ := s.runPhase_eq task total hpos
    rw [hp]
    exact Phase.ended_free hr he
  bounded u hu := inFlight_le hu
  reached hl := exists_filled hl
  ends := by
    obtain ⟨-, -, he, -⟩ := Timeline.run_ends s.venue (s.timeline task total) rfl rfl hpos
    exact ⟨_, fun u hu => leads_runPhase hpos hu, he, rfl⟩
  peak_bounds := ⟨s.le_runPhase_peak task total hpos, s.runPhase_peak_le task total hpos⟩
  peak_reached hl := runPhase_peak hpos hl

/-! Runs. -/

theorem warmUp_keeps (s : Session) (count : Nat) (hpos : 0 < s.permits) :
    (s.warmUp count).2.permits = s.permits ∧ (s.warmUp count).1.created ≤ count := by
  obtain ⟨ms, p, time, peak, hr, he, -, hwarm⟩ := s.warmUp_timed count hpos
  rw [hwarm]
  refine ⟨rfl, ?_⟩
  rw [← Phase.run_length_results hr he]
  exact List.countP_le_length

theorem warmUp_peak_le (s : Session) (count : Nat) (hpos : 0 < s.permits) :
    (s.warmUp count).2.peak ≤ max s.peak (min s.permits count) :=
  (s.note (.warmingUp count)).runPhase_peak_le .place count hpos

theorem warmUp_peak (s : Session) (count : Nat) (hpos : 0 < s.permits)
    (hv : ∀ number call, 0 < (s.venue number call).latency) :
    (s.warmUp count).2.peak = max s.peak (min s.permits count) := by
  have hl : ((s.note (.warmingUp count)).timeline .place count).Lingers s.venue := Timeline.lingers_place rfl rfl hv
  exact runPhase_peak hpos hl

variable {workload : Workload}

theorem run_peak_le {r : RunRecord} (hpos : 0 < s.permits) (h : s.run workload total = .ok (r, t)) :
    t.peak ≤ max s.peak s.permits := by
  rcases hw : workload.warmupCount total with fault | _ | count
  · simp [s.run_error hw] at h
  · simp only [run_eq_ok_iff, s.perform_none hw, Prod.mk.injEq] at h
    obtain ⟨-, rfl⟩ := h
    have hle := s.runPhase_peak_le workload.task (workload.measuredCount total none) hpos
    exact hle.trans (max_le_max_left _ (Nat.min_le_left _ _))
  · simp only [run_eq_ok_iff, s.perform_some hw, Prod.mk.injEq] at h
    obtain ⟨-, rfl⟩ := h
    obtain ⟨hpermits, -⟩ := s.warmUp_keeps count hpos
    have hwarm := s.warmUp_peak_le count hpos
    have hle := (s.warmUp count).2.runPhase_peak_le workload.task
      (workload.measuredCount total (some (s.warmUp count).1)) (hpermits ▸ hpos)
    rw [hpermits] at hle
    refine hle.trans (Nat.max_le.mpr ⟨hwarm.trans ?_, ?_⟩)
    · exact max_le_max_left _ (Nat.min_le_left _ _)
    · exact (Nat.min_le_left _ _).trans (Nat.le_max_right _ _)

/-- Where every call takes time, a run fills its permits as far as its first phase has tasks for them. -/
theorem run_peak {count : Option Nat} (hw : workload.warmupCount total = .ok count) (hpos : 0 < s.permits)
    (hv : ∀ number call, 0 < (s.venue number call).latency) :
    ∃ r t, s.run workload total = .ok (r, t) ∧ t.peak = max s.peak (min s.permits (count.getD total)) := by
  obtain ⟨r, t, hrun⟩ := s.run_ok hpos hw
  refine ⟨r, t, hrun, ?_⟩
  rw [run_eq_ok_iff] at hrun
  cases count with
  | none =>
      obtain rfl := Workload.eq_place_of_warmupCount hw
      simp only [s.perform_none hw, Prod.mk.injEq] at hrun
      obtain ⟨-, rfl⟩ := hrun
      have hl : (s.timeline .place total).Lingers s.venue := Timeline.lingers_place rfl rfl hv
      exact runPhase_peak hpos hl
  | some count =>
      simp only [s.perform_some hw, Prod.mk.injEq] at hrun
      obtain ⟨-, rfl⟩ := hrun
      obtain ⟨hpermits, hcreated⟩ := s.warmUp_keeps count hpos
      have hwarm := s.warmUp_peak count hpos hv
      -- the measured phase, with no more tasks, adds nothing to the peak of the warm-up
      have hcount := Workload.measuredCount_le_count hw hcreated
      have hge := (s.warmUp count).2.le_runPhase_peak workload.task
        (workload.measuredCount total (some (s.warmUp count).1)) (hpermits ▸ hpos)
      have hle := (s.warmUp count).2.runPhase_peak_le workload.task
        (workload.measuredCount total (some (s.warmUp count).1)) (hpermits ▸ hpos)
      rw [hpermits] at hle
      refine Nat.le_antisymm (hle.trans ?_) (hwarm ▸ hge)
      rw [hwarm]
      dsimp only [Option.getD_some]
      omega

theorem runAll_peak_le {runs : List (Workload × Nat)} (hpos : 0 < s.permits) (h : s.runAll runs = .ok t) :
    t.peak ≤ max s.peak s.permits := by
  induction runs generalizing s with
  | nil =>
      cases h
      exact Nat.le_max_left _ _
  | cons run runs ih =>
      obtain ⟨r, u, hr, hrest⟩ := runAll_cons.mp h
      have hp : u.permits = s.permits := (s.run_history hpos hr).2
      have hle := ih (hp ▸ hpos) hrest
      rw [hp] at hle
      exact hle.trans (Nat.max_le.mpr ⟨run_peak_le hpos hr, Nat.le_max_right _ _⟩)

end Session

/-- Permits are conserved, with the answers in any order and on the clock, over any number of runs. What a phase leaves
behind is where its moments lead, the greatest number of calls under way included, and where every call takes time a
run fills as many permits as its first phase has tasks. -/
theorem permits_conserved (permits : Nat) (hpos : 0 < permits) :
    (∀ (desk : Desk) (ms : List Phase.Move) (d : Driver),
      Driver.History (.idle desk permits) ms d → d.PermitsConserved permits) ∧
    ∀ (s : Session), s.permits = permits →
      (∀ task total, s.PermitsKept task total) ∧
      (∀ runs t, s.runAll runs = .ok t → t.permits = permits ∧ t.peak ≤ max s.peak permits ∧
        ∃ ms, Driver.History (.idle s.desk permits) ms (.idle t.desk permits)) ∧
      ∀ (workload : Workload) (total : Nat) (count : Option Nat), workload.warmupCount total = .ok count →
        (∀ number call, 0 < (s.venue number call).latency) →
        ∃ r t, s.run workload total = .ok (r, t) ∧ t.peak = max s.peak (min permits (count.getD total)) := by
  refine ⟨?_, ?_⟩
  · intro desk ms d h
    exact (Driver.history_sound h rfl).permitsConserved
  · rintro s rfl
    refine ⟨fun task total => s.permitsKept task total hpos, ?_, ?_⟩
    · intro runs t h
      obtain ⟨⟨ms, hm⟩, hpermits⟩ := s.runAll_history hpos h
      exact ⟨hpermits, Session.runAll_peak_le hpos h, ms, hpermits ▸ hm⟩
    · intro workload total count hw hv
      exact Session.run_peak hw hpos hv

/-- Three permits: a call is under way in a run of two placements, five placements of five nanoseconds each fill them,
and so does the warm-up of two mixed tasks. -/
theorem permits_conserved_of_three :
    (∃ ms d, Driver.History (.idle { symbol := "BTCUSDT", draws := .cyclic #[] } 3) ms d ∧ d.inFlight.length = 1 ∧
      d.PermitsConserved 3) ∧
    let s : Session := {
      venue := fun _ _ => ⟨5, .error (.timeout ⟨10, 0⟩)⟩
      permits := 3
      desk := { symbol := "BTCUSDT", draws := .cyclic #[] } }
    (∃ t, s.runAll [(.cancel, 3), (.both, 2)] = .ok t ∧ t.permits = 3 ∧ t.peak ≤ 3) ∧
      (s.runPhase .place 5).2.peak = 3 ∧ ∃ r t, s.run .both 2 = .ok (r, t) ∧ t.peak = 3 := by
  obtain ⟨hany, hclock⟩ := permits_conserved 3 (by decide)
  let desk : Desk := { symbol := "BTCUSDT", draws := .cyclic #[] }
  have hbegin : Driver.Step (.idle desk 3) none (.measuring .place (Driver.measured .place 2 none desk 3)) := .begin rfl
  have hstart : Phase.Step (Driver.measured .place 2 none desk 3) (.start 0 _) _ := .start rfl
  have h := (Driver.History.nil.silent hbegin).snoc (.measuring hstart)
  refine ⟨⟨_, _, h, rfl, hany _ _ _ h⟩, ?_⟩
  intro s
  obtain ⟨hkept, hruns, hfilled⟩ := hclock s rfl
  have hlatency : ∀ number call, 0 < (s.venue number call).latency := fun _ _ => Nat.succ_pos 4
  have hcounts : ∀ run ∈ [(Workload.cancel, 3), (Workload.both, 2)],
      ∃ count, run.1.warmupCount run.2 = .ok count := by
    simp only [List.mem_cons, List.not_mem_nil, or_false, forall_eq_or_imp, forall_eq]
    exact ⟨⟨_, rfl⟩, ⟨_, rfl⟩⟩
  obtain ⟨t, ht⟩ := s.runAll_ok (by decide) hcounts
  obtain ⟨hpermits, hpeak, -⟩ := hruns _ t ht
  refine ⟨⟨t, ht, hpermits, hpeak⟩, ?_, hfilled .both 2 (some 3) rfl hlatency⟩
  exact (hkept .place 5).peak_reached (Timeline.lingers_place rfl rfl hlatency)

end OrderBench
