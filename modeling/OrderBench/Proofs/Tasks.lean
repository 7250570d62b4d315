import OrderBench.Proofs.Phase
import OrderBench.Proofs.Lists

/-!
The tasks of a phase. In a sound phase a task waits, or is under way with a permit, or has its attempt;
along a run the attempts are those that the answers to the calls make.
-/
namespace OrderBench

theorem filterMap_range_getElem? {α β : Type} (l : List α) (f : α → Option β) :
    (List.range l.length).filterMap (fun i => l[i]?.bind f) = l.filterMap f := by
  induction l with
  | nil => rfl
  | cons a l ih =>
      rw [List.length_cons, List.range_succ_eq_map, List.filterMap_cons, List.filterMap_map, List.filterMap_cons]
      simp only [Function.comp_def, Nat.succ_eq_add_one, List.getElem?_cons_succ, ih, List.getElem?_cons_zero,
        Option.bind_some]

namespace Phase

/-- The tasks past their permit: they have started, and have no attempt yet. -/
def running (p : Phase) : List Nat := (List.range p.started).filter fun i => p.attempts[i]? = some none

structure Sound (p : Phase) : Prop where
  size : p.attempts.size = p.total
  started_le : p.started ≤ p.total
  nodup : (p.inFlight.map Prod.fst).Nodup
  mem_inFlight : ∀ i, i ∈ p.inFlight.map Prod.fst ↔ i < p.started ∧ p.attempts[i]? = some none
  waiting : ∀ i, p.started ≤ i → i < p.total → p.attempts[i]? = some none

/-- Where a call is found among those under way, it is the only one of its task. -/
theorem filter_of_lookup {l : List (Nat × Call)} {i : Nat} {call : Call} (hn : (l.map Prod.fst).Nodup)
    (h : l.lookup i = some call) : ∃ l₁ l₂, l = l₁ ++ (i, call) :: l₂ ∧ l.filter (·.1 ≠ i) = l₁ ++ l₂ := by
  obtain ⟨l₁, l₂, rfl, -⟩ := List.lookup_eq_some_iff.mp h
  refine ⟨l₁, l₂, rfl, ?_⟩
  rw [List.map_append, List.map_cons, List.nodup_middle, List.nodup_cons, List.mem_append, not_or] at hn
  have hkeep {m : List (Nat × Call)} (hm : i ∉ m.map Prod.fst) : m.filter (·.1 ≠ i) = m := by
    rw [List.filter_eq_self]
    rintro ⟨j, c⟩ hj
    have hne : j ≠ i := fun he => hm (he ▸ List.mem_map_of_mem (f := Prod.fst) hj)
    simpa using hne
  rw [List.filter_append, List.filter_cons_of_neg (by simp), hkeep hn.1.1, hkeep hn.1.2]

theorem opening_sound (desk : Desk) (task : Task) (total permits : Nat) :
    Sound (opening desk task total permits) where
  size := Array.size_replicate
  started_le := Nat.zero_le _
  nodup := List.nodup_nil
  mem_inFlight := by simp [opening]
  waiting := by
    intro i _ hi
    simpa [opening, Array.getElem?_replicate] using hi

theorem Sound.skip {p : Phase} (hp : p.Sound) (hs : p.started < p.total) (desk : Desk) : (p.skip desk).Sound where
  size := by simpa using hp.size
  started_le := hs
  nodup := hp.nodup
  mem_inFlight := by
    intro i
    rw [skip_inFlight, hp.mem_inFlight, skip_started, skip_attempts]
    by_cases hi : p.started = i
    · simp [hi, hp.size, Array.getElem?_setIfInBounds]
    · rw [Array.getElem?_setIfInBounds_ne hi]
      have : i < p.started + 1 ↔ i < p.started := by omega
      rw [this]
  waiting := by
    intro i hi ht
    rw [skip_started] at hi
    rw [skip_attempts, Array.getElem?_setIfInBounds_ne (by omega)]
    exact hp.waiting i (by omega) ht

theorem Sound.send {p : Phase} (hp : p.Sound) (hs : p.started < p.total) (call : Call) (desk : Desk) :
    (p.send call desk).Sound where
  size := hp.size
  started_le := hs
  nodup := by
    refine List.nodup_cons.mpr ⟨?_, hp.nodup⟩
    rw [hp.mem_inFlight]
    exact fun hm => Nat.lt_irrefl _ hm.1
  mem_inFlight := by
    intro i
    rw [send_inFlight, List.map_cons, List.mem_cons, hp.mem_inFlight, send_started, send_attempts]
    constructor
    · rintro (rfl | ⟨hi, ha⟩)
      · exact ⟨Nat.lt_succ_self _, hp.waiting _ (Nat.le_refl _) hs⟩
      · exact ⟨Nat.lt_succ_of_lt hi, ha⟩
    · rintro ⟨hi, ha⟩
      by_cases he : i = p.started
      · exact .inl he
      · exact .inr ⟨by omega, ha⟩
  waiting i hi ht := hp.waiting i (Nat.le_of_succ_le hi) ht

theorem Sound.settle {p : Phase} (hp : p.Sound) {index : Nat} {call : Call}
    (hl : p.inFlight.lookup index = some call) (answer : Answer) : (p.settle index call answer).Sound := by
  obtain ⟨l₁, l₂, he, hf⟩ := filter_of_lookup hp.nodup hl
  have hmem := hp.mem_inFlight
  have hn := hp.nodup
  rw [he, List.map_append, List.map_cons, List.nodup_middle, List.nodup_cons, ← List.map_append] at hn
  have hlt : index < p.started := ((hmem index).mp (by simp [he])).1
  refine ⟨by simpa using hp.size, hp.started_le, ?_, ?_, ?_⟩
  · rw [settle_inFlight, hf]
    exact hn.2
  · intro i
    rw [settle_inFlight, hf, settle_started, settle_attempts]
    by_cases hi : index = i
    · subst hi
      constructor
      · exact fun hm => absurd hm hn.1
      · rintro ⟨-, ha⟩
        have : index < p.total := Nat.lt_of_lt_of_le hlt hp.started_le
        simp [hp.size, this] at ha
    · rw [Array.getElem?_setIfInBounds_ne hi, ← hmem i, he]
      simp only [List.map_append, List.map_cons, List.mem_append, List.mem_cons]
      constructor
      · rintro (h | h)
        · exact .inl h
        · exact .inr (.inr h)
      · rintro (h | rfl | h)
        · exact .inl h
        · exact absurd rfl hi
        · exact .inr h
  · intro i hi ht
    rw [settle_started] at hi
    rw [settle_attempts, Array.getElem?_setIfInBounds_ne (by omega)]
    exact hp.waiting i hi ht

theorem step_sound {p q : Phase} {m : Move} (h : Step p m q) (hp : Sound p) : Sound q := by
  obtain ⟨time, desk, -, hs, -, -, rfl⟩ | ⟨time, call, desk, -, hs, -, -, rfl⟩ | ⟨index, call, answer, -, hl, rfl⟩ :=
    step_cases h
  · exact hp.skip hs desk
  · exact hp.send hs call desk
  · exact hp.settle hl answer

theorem run_sound {p q : Phase} {ms : List Move} (h : Run p ms q) (hp : Sound p) : Sound q := by
  induction h with
  | nil => exact hp
  | snoc _ hs ih => exact step_sound hs ih

theorem Sound.running_perm {p : Phase} (hp : Sound p) : p.running.Perm (p.inFlight.map Prod.fst) := by
  apply (List.perm_ext_iff_of_nodup (List.nodup_range.filter _) hp.nodup).mpr
  intro i
  rw [hp.mem_inFlight]
  simp

theorem Sound.length_running {p : Phase} (hp : Sound p) : p.running.length = p.inFlight.length := by
  rw [hp.running_perm.length_eq, List.length_map]

theorem Sound.length_inFlight_le {p : Phase} (hp : Sound p) : p.inFlight.length ≤ p.started := by
  rw [← hp.length_running]
  exact Nat.le_trans (List.length_filter_le _ _) (Nat.le_of_eq List.length_range)

/-- A call under way can be answered at any time, and in any way. -/
theorem Sound.exists_finish {p : Phase} (hp : Sound p) {i : Nat} {call : Call} (h : (i, call) ∈ p.inFlight)
    (answer : Answer) : ∃ q, Step p (.finish i call answer) q := by
  have hl : p.inFlight.lookup i = some call := (lookup_eq_some_iff hp.nodup).mpr h
  exact ⟨_, .finish hl (finish_of_lookup hl answer)⟩

theorem Ended.not_step {p q : Phase} {m : Move} (he : p.Ended) : ¬Step p m q := by
  intro h
  obtain ⟨_, _, -, hs, -⟩ | ⟨_, _, _, -, hs, -⟩ | ⟨_, _, _, -, hl, -⟩ := step_cases h
  · exact Nat.ne_of_lt hs he.1
  · exact Nat.ne_of_lt hs he.1
  · rw [he.2] at hl
    cases hl

/-! Permits. -/

theorem step_permits {p q : Phase} {m : Move} (h : Step p m q) (hp : Sound p) :
    q.inFlight.length + q.free = p.inFlight.length + p.free := by
  obtain ⟨_, _, -, -, -, -, rfl⟩ | ⟨_, _, _, -, -, hf, -, rfl⟩ | ⟨_, _, _, -, hl, rfl⟩ := step_cases h
  · rfl
  · have : p.free - 1 + 1 = p.free := Nat.sub_add_cancel hf
    simp only [send_inFlight, send_free, List.length_cons]
    omega
  · obtain ⟨l₁, l₂, he, hf⟩ := filter_of_lookup hp.nodup hl
    have hn : p.inFlight.length = l₁.length + (l₂.length + 1) := by rw [he]; simp
    simp only [settle_inFlight, settle_free, hf, List.length_append]
    omega

theorem run_permits {p q : Phase} {ms : List Move} (h : Run p ms q) (hp : Sound p) :
    q.inFlight.length + q.free = p.inFlight.length + p.free := by
  induction h with
  | nil => rfl
  | snoc hr hs ih => rw [step_permits hs (run_sound hr hp), ih]

/-! Results. -/

theorem Sound.attempts_eq {p : Phase} (hp : Sound p) (he : p.Ended) : p.attempts.toList = p.results.map some := by
  have hall : ∀ a ∈ p.attempts.toList, a.isSome = true := by
    intro a ha
    obtain ⟨i, hi, rfl⟩ := List.getElem_of_mem ha
    have hlt : i < p.started := by rw [he.1, ← hp.size]; simpa using hi
    have hnot := (hp.mem_inFlight i).not.mp (by simp [he.2])
    by_contra hnone
    refine hnot ⟨hlt, ?_⟩
    rw [Array.getElem?_eq_getElem (by simpa using hi), Option.some_inj]
    simpa using hnone
  rw [results, List.map_filterMap_some_eq_filter_map_isSome, List.map_id, List.filter_eq_self.mpr hall]

theorem Sound.length_results {p : Phase} (hp : Sound p) (he : p.Ended) : p.results.length = p.total := by
  rw [← hp.size, ← Array.length_toList, hp.attempts_eq he, List.length_map]

theorem Sound.results_getElem? {p : Phase} (hp : Sound p) (he : p.Ended) {i : Nat} {a : Attempt}
    (ha : p.attempts[i]? = some (some a)) : p.results[i]? = some a := by
  rw [← Array.getElem?_toList, hp.attempts_eq he, List.getElem?_map] at ha
  simpa using ha

/-- A task that was without an attempt gets one. -/
theorem filterMap_set {l : List (Option Attempt)} {i : Nat} (h : l[i]? = some none) (a : Attempt) :
    ((l.set i (some a)).filterMap id).Perm (l.filterMap id ++ [a]) := by
  obtain ⟨hi, hn⟩ := List.getElem?_eq_some_iff.mp h
  have hl : l = l.take i ++ none :: l.drop (i + 1) := by
    rw [← hn, List.getElem_cons_drop, List.take_append_drop]
  rw [List.set_eq_take_append_cons_drop, if_pos hi, List.filterMap_append]
  nth_rewrite 3 [hl]
  simpa using List.perm_middle.trans (List.perm_append_singleton _ _).symm

theorem step_results {p q : Phase} {m : Move} (h : Step p m q) (hp : Sound p) :
    q.results.Perm (p.results ++ m.attempts) := by
  have hrecord {i : Nat} (hi : p.attempts[i]? = some none) (a : Attempt) :
      ((p.attempts.setIfInBounds i (some a)).toList.filterMap id).Perm (p.results ++ [a]) := by
    rw [Array.toList_setIfInBounds]
    exact filterMap_set (Array.getElem?_toList ▸ hi) a
  obtain ⟨time, desk, rfl, hs, -, -, rfl⟩ | ⟨time, call, desk, rfl, -, -, -, rfl⟩ | ⟨index, call, answer, rfl, hl, rfl⟩ :=
    step_cases h
  · exact hrecord (hp.waiting _ (Nat.le_refl _) hs) _
  · exact .of_eq (List.append_nil _).symm
  · obtain ⟨l₁, l₂, he, -⟩ := filter_of_lookup hp.nodup hl
    exact hrecord ((hp.mem_inFlight index).mp (by simp [he])).2 _

theorem run_results {p q : Phase} {ms : List Move} (h : Run p ms q) (hp : Sound p) :
    q.results.Perm (p.results ++ ms.flatMap Move.attempts) := by
  induction h with
  | nil => exact .of_eq (List.append_nil _).symm
  | snoc hr hs ih =>
      rw [List.flatMap_append, ← List.append_assoc, List.flatMap_singleton]
      exact (step_results hs (run_sound hr hp)).trans (ih.append_right _)

/-- The moves that led to a phase, task by task. -/
structure Told (ms : List Move) (p : Phase) : Prop where
  started : (begun ms).length = p.started
  inFlight : ∀ (i : Nat) (call : Call), (i, call) ∈ p.inFlight → (begun ms)[i]? = some (some call)
  skipped : ∀ i : Nat, (begun ms)[i]? = some none → p.attempts[i]? = some (some .nothingToCancel)
  finished : ∀ (i : Nat) (call : Call) (answer : Answer), Move.finish i call answer ∈ ms →
    (begun ms)[i]? = some (some call) ∧ p.attempts[i]? = some (some (call.attempt answer))
  answered : ∀ (i : Nat) (call : Call), (begun ms)[i]? = some (some call) →
    (i, call) ∈ p.inFlight ∨ ∃ answer, Move.finish i call answer ∈ ms

theorem Told.lt_started {p : Phase} {ms : List Move} (ht : Told ms p) {i : Nat} {c : Option Call}
    (hb : (begun ms)[i]? = some c) : i < p.started := ht.started ▸ (List.getElem?_eq_some_iff.mp hb).1

/-- A start leaves the tasks that have begun, and adds one. -/
theorem Told.begun_concat {p : Phase} {ms : List Move} (ht : Told ms p) {c d : Option Call} {i : Nat} :
    (begun ms ++ [c])[i]? = some d ↔ (begun ms)[i]? = some d ∨ i = p.started ∧ c = d := by
  rw [← ht.started]
  by_cases hi : i < (begun ms).length
  · rw [List.getElem?_append_left hi]
    constructor
    · exact .inl
    · rintro (hb | ⟨he, -⟩)
      · exact hb
      · exact absurd he (Nat.ne_of_lt hi)
  · rw [List.getElem?_append_right (Nat.le_of_not_lt hi), List.getElem?_eq_none (Nat.le_of_not_lt hi),
      List.getElem?_singleton]
    by_cases he : i = (begun ms).length
    · simp [he]
    · have : i - (begun ms).length ≠ 0 := by omega
      simp [he, this]

theorem Told.skip {p : Phase} {ms : List Move} (ht : Told ms p) (hp : p.Sound) (hs : p.started < p.total)
    (time : Nat) (desk : Desk) : Told (ms ++ [.start time none]) (p.skip desk) := by
  have hkeep {i : Nat} (hi : i < p.started) : (p.skip desk).attempts[i]? = p.attempts[i]? := by
    rw [skip_attempts, Array.getElem?_setIfInBounds_ne (by omega)]
  refine ⟨by simp [ht.started], ?_, ?_, ?_, ?_⟩ <;> simp only [begun_append, begun_start, ht.begun_concat]
  · intro i call hc
    exact .inl (ht.inFlight i call hc)
  · rintro i (hi | ⟨rfl, -⟩)
    · rw [hkeep (ht.lt_started hi)]
      exact ht.skipped i hi
    · rw [skip_attempts, Array.getElem?_setIfInBounds_self_of_lt (hp.size ▸ hs)]
  · intro i call answer hm
    obtain ⟨hb, ha⟩ := ht.finished i call answer (by simpa using hm)
    rw [hkeep (ht.lt_started hb)]
    exact ⟨.inl hb, ha⟩
  · rintro i call (hb | ⟨-, hn⟩)
    · obtain hf | ⟨answer, ha⟩ := ht.answered i call hb
      · exact .inl hf
      · exact .inr ⟨answer, List.mem_append_left _ ha⟩
    · cases hn

theorem Told.send {p : Phase} {ms : List Move} (ht : Told ms p) (time : Nat) (call : Call) (desk : Desk) :
    Told (ms ++ [.start time (some call)]) (p.send call desk) := by
  refine ⟨by simp [ht.started], ?_, ?_, ?_, ?_⟩ <;> simp only [begun_append, begun_start, ht.begun_concat]
  · intro i c hc
    rcases List.mem_cons.mp hc with he | hc
    · cases he
      exact .inr ⟨rfl, rfl⟩
    · exact .inl (ht.inFlight i c hc)
  · rintro i (hi | ⟨-, hn⟩)
    · exact ht.skipped i hi
    · cases hn
  · intro i c answer hm
    obtain ⟨hb, ha⟩ := ht.finished i c answer (by simpa using hm)
    exact ⟨.inl hb, ha⟩
  · rintro i c (hb | ⟨rfl, hn⟩)
    · obtain hf | ⟨answer, ha⟩ := ht.answered i c hb
      · exact .inl (List.mem_cons_of_mem _ hf)
      · exact .inr ⟨answer, List.mem_append_left _ ha⟩
    · cases hn
      exact .inl (List.mem_cons_self ..)

theorem Told.settle {p : Phase} {ms : List Move} (ht : Told ms p) (hp : p.Sound) {index : Nat} {call : Call}
    (hl : p.inFlight.lookup index = some call) (answer : Answer) :
    Told (ms ++ [.finish index call answer]) (p.settle index call answer) := by
  obtain ⟨l₁, l₂, he, -⟩ := filter_of_lookup hp.nodup hl
  have hin : (index, call) ∈ p.inFlight := by simp [he]
  have hmem := (hp.mem_inFlight index).mp (List.mem_map_of_mem hin)
  have hlt : index < p.attempts.size := hp.size ▸ Nat.lt_of_lt_of_le hmem.1 hp.started_le
  refine ⟨by simp [ht.started], ?_, ?_, ?_, ?_⟩ <;>
    simp only [begun_append, begun_finish, List.append_nil, settle_attempts]
  · exact fun i c hc => ht.inFlight i c (List.mem_filter.mp hc).1
  · intro i hi
    have hne : index ≠ i := by
      rintro rfl
      simp [ht.inFlight _ _ hin] at hi
    rw [Array.getElem?_setIfInBounds_ne hne]
    exact ht.skipped i hi
  · intro i c a hm
    rcases List.mem_append.mp hm with hm | hm
    · obtain ⟨hb, ha⟩ := ht.finished i c a hm
      have hne : index ≠ i := by
        rintro rfl
        simp [hmem.2] at ha
      exact ⟨hb, by rwa [Array.getElem?_setIfInBounds_ne hne]⟩
    · cases List.mem_singleton.mp hm
      exact ⟨ht.inFlight _ _ hin, Array.getElem?_setIfInBounds_self_of_lt hlt⟩
  · intro i c hb
    obtain hi | ⟨a, ha⟩ := ht.answered i c hb
    · by_cases hne : i = index
      · subst hne
        have hc := (ht.inFlight _ _ hin).symm.trans hb
        cases hc
        exact .inr ⟨answer, by simp⟩
      · exact .inl (List.mem_filter.mpr ⟨hi, by simpa using hne⟩)
    · exact .inr ⟨a, List.mem_append_left _ ha⟩

theorem step_told {p q : Phase} {ms : List Move} {m : Move} (h : Step p m q) (hp : Sound p) (ht : Told ms p) :
    Told (ms ++ [m]) q := by
  obtain ⟨time, desk, rfl, hs, -, -, rfl⟩ | ⟨time, call, desk, rfl, -, -, -, rfl⟩ |
    ⟨index, call, answer, rfl, hl, rfl⟩ := step_cases h
  · exact ht.skip hp hs time desk
  · exact ht.send time call desk
  · exact ht.settle hp hl answer

theorem opening_told (desk : Desk) (task : Task) (total permits : Nat) :
    Told [] (opening desk task total permits) := by
  constructor <;> simp [opening]

variable {desk : Desk} {task : Task} {total permits : Nat} {ms : List Move} {p : Phase}

theorem run_opening_sound (h : Run (opening desk task total permits) ms p) : Sound p :=
  run_sound h (opening_sound desk task total permits)

theorem run_told (h : Run (opening desk task total permits) ms p) : Told ms p := by
  induction h with
  | nil => exact opening_told desk task total permits
  | snoc hr hs ih => exact step_told hs (run_opening_sound hr) ih

/-- The results are the attempts that the moves bring, also before the phase has ended. -/
theorem run_results_perm (h : Run (opening desk task total permits) ms p) :
    p.results.Perm (ms.flatMap Move.attempts) := by
  have hnone : (opening desk task total permits).results = [] := by simp [results, opening]
  have hresults := run_results h (opening_sound desk task total permits)
  rwa [hnone, List.nil_append] at hresults

theorem run_started (h : Run (opening desk task total permits) ms p) : (begun ms).length = p.started :=
  (run_told h).started

theorem run_total (h : Run (opening desk task total permits) ms p) : p.total = total := (run_task h).2

theorem run_length_results (h : Run (opening desk task total permits) ms p) (he : p.Ended) :
    p.results.length = total := by
  rw [(run_opening_sound h).length_results he, run_total h]

theorem run_length_begun (h : Run (opening desk task total permits) ms p) (he : p.Ended) :
    (begun ms).length = total := by
  rw [run_started h, he.1, run_total h]

/-- No call is answered twice. -/
theorem run_ended_nodup (h : Run (opening desk task total permits) ms p) : (ended ms).Nodup := by
  induction h with
  | nil => exact List.nodup_nil
  | @snoc ms m q r hr hs ih =>
      rw [ended_append]
      obtain ⟨_, _, rfl, -⟩ | ⟨_, _, _, rfl, -⟩ | ⟨index, call, answer, rfl, hl, -⟩ := step_cases hs
      · exact (List.append_nil _).symm ▸ ih
      · exact (List.append_nil _).symm ▸ ih
      · have hnew : index ∉ ended ms := by
          intro hm
          obtain ⟨c, a, hm⟩ := mem_ended.mp hm
          obtain ⟨l₁, l₂, he, -⟩ := filter_of_lookup (run_opening_sound hr).nodup hl
          have hopen := ((run_opening_sound hr).mem_inFlight index).mp (by simp [he])
          have hdone := ((run_told hr).finished index c a hm).2
          simp [hopen.2] at hdone
        exact List.nodup_append.mpr ⟨ih, List.nodup_singleton index, fun i hi j hj he =>
          hnew (List.mem_singleton.mp hj ▸ he ▸ hi)⟩

theorem run_result_skipped (h : Run (opening desk task total permits) ms p) (he : p.Ended) {i : Nat}
    (hb : (begun ms)[i]? = some none) : p.results[i]? = some .nothingToCancel :=
  (run_opening_sound h).results_getElem? he ((run_told h).skipped i hb)

theorem run_result_finished (h : Run (opening desk task total permits) ms p) (he : p.Ended) {i : Nat} {call : Call}
    {answer : Answer} (hm : Move.finish i call answer ∈ ms) : p.results[i]? = some (call.attempt answer) :=
  (run_opening_sound h).results_getElem? he ((run_told h).finished i call answer hm).2

theorem run_answered (h : Run (opening desk task total permits) ms p) (he : p.Ended) {i : Nat} {call : Call}
    (hb : (begun ms)[i]? = some (some call)) : ∃ answer, Move.finish i call answer ∈ ms := by
  obtain hi | ha := (run_told h).answered i call hb
  · rw [he.2] at hi
    cases hi
  · exact ha

/-- The tasks that ended where they started, without a call. -/
def skipped (ms : List Move) : List Nat :=
  (List.range (begun ms).length).filter fun i => (begun ms)[i]? = some none

theorem mem_skipped {i : Nat} : i ∈ skipped ms ↔ (begun ms)[i]? = some none := by
  rw [skipped, List.mem_filter, List.mem_range, decide_eq_true_iff, and_iff_right_iff_imp]
  exact fun h => (List.getElem?_eq_some_iff.mp h).1

/-- Each task ends once, with an answer or without a call. -/
theorem run_completed_perm (h : Run (opening desk task total permits) ms p) (he : p.Ended) :
    (ended ms ++ skipped ms).Perm (List.range total) := by
  have hnodup : (ended ms ++ skipped ms).Nodup := by
    refine List.nodup_append.mpr ⟨run_ended_nodup h, List.nodup_range.filter _, ?_⟩
    rintro i hi j hj rfl
    obtain ⟨call, answer, hm⟩ := mem_ended.mp hi
    have hb := ((run_told h).finished i call answer hm).1
    rw [mem_skipped.mp hj] at hb
    cases hb
  apply (List.perm_ext_iff_of_nodup hnodup List.nodup_range).mpr
  intro i
  rw [List.mem_append, mem_ended, mem_skipped, List.mem_range, ← run_length_begun h he]
  constructor
  · rintro (⟨call, answer, hm⟩ | hb)
    · exact (List.getElem?_eq_some_iff.mp ((run_told h).finished i call answer hm).1).1
    · exact (List.getElem?_eq_some_iff.mp hb).1
  · intro hi
    have hb := List.getElem?_eq_getElem hi
    cases hc : (begun ms)[i] with
    | none => exact .inr (hb.trans (congrArg some hc))
    | some call =>
        obtain ⟨answer, hm⟩ := run_answered h he (hb.trans (congrArg some hc))
        exact .inl ⟨call, answer, hm⟩

/-- The ids that the answers offer are those of the results, in some order. -/
theorem run_offers_perm (h : Run (opening desk task total permits) ms p) :
    (ms.filterMap Move.offered?).Perm (p.results.filterMap Attempt.offered?) := by
  rw [← attempts_offered]
  exact ((run_results_perm h).filterMap _).symm

theorem run_result_cases (h : Run (opening desk task total permits) ms p) (he : p.Ended) {i : Nat} {a : Attempt}
    (ha : p.results[i]? = some a) : (a = .nothingToCancel ∧ (begun ms)[i]? = some none) ∨
      ∃ call answer, Move.finish i call answer ∈ ms ∧ a = call.attempt answer := by
  have hlt : i < (begun ms).length := by
    rw [run_length_begun h he, ← run_length_results h he]
    exact (List.getElem?_eq_some_iff.mp ha).1
  have hb := List.getElem?_eq_getElem hlt
  cases hc : (begun ms)[i] with
  | none =>
      rw [hc] at hb
      rw [run_result_skipped h he hb, Option.some_inj] at ha
      exact .inl ⟨ha.symm, hb⟩
  | some call =>
      rw [hc] at hb
      obtain ⟨answer, hm⟩ := run_answered h he hb
      rw [run_result_finished h he hm, Option.some_inj] at ha
      exact .inr ⟨call, answer, hm, ha.symm⟩

theorem run_result_kinds (h : Run (opening desk task total permits) ms p) (he : p.Ended) :
    p.results.map Attempt.kind = (begun ms).map fun call => (call.map Call.kind).getD .cancel := by
  apply List.ext_getElem?
  intro i
  rw [List.getElem?_map, List.getElem?_map]
  rcases hb : (begun ms)[i]? with _ | _ | call
  · have hlen := List.getElem?_eq_none_iff.mp hb
    rw [run_length_begun h he, ← run_length_results h he] at hlen
    rw [List.getElem?_eq_none hlen]
    rfl
  · rw [run_result_skipped h he hb]
    rfl
  · obtain ⟨answer, hm⟩ := run_answered h he hb
    rw [run_result_finished h he hm]
    simp

/-- The state of a phase in which a task starts, with the call that it makes. -/
def Begins (p₀ : Phase) (ms : List Move) (i : Nat) (p : Phase) (call : Option Call) : Prop :=
  ∃ before time after q, ms = before ++ .start time call :: after ∧ Run p₀ before p ∧
    p.started = i ∧ Step p (.start time call) q

theorem run_begins (h : Run (opening desk task total permits) ms p) {i : Nat} {call : Option Call}
    (hb : (begun ms)[i]? = some call) : ∃ q, Begins (opening desk task total permits) ms i q call := by
  induction h with
  | nil => cases hb
  | @snoc ms m q r hr hs ih =>
      have hkeep (hb : (begun ms)[i]? = some call) :
          ∃ q, Begins (opening desk task total permits) (ms ++ [m]) i q call := by
        obtain ⟨q, before, time, after, r, rfl, hq⟩ := ih hb
        exact ⟨q, before, time, after ++ [m], r, by simp, hq⟩
      cases hs with
      | @start _ time c hstart =>
          rw [begun_append, begun_start, (run_told hr).begun_concat] at hb
          obtain hb | ⟨rfl, rfl⟩ := hb
          · exact hkeep hb
          · exact ⟨q, ms, time, [], r, rfl, hr, rfl, .start hstart⟩
      | finish =>
          rw [begun_append, begun_finish, List.append_nil] at hb
          exact hkeep hb

end Phase

end OrderBench
