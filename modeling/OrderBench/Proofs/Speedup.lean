import OrderBench.Proofs.Placement
import OrderBench.Proofs.Schedule
import OrderBench.Proofs.Session

/-!
Runs of placements under more permits, or on a faster service. At every moment no fewer permits have come free there, so
each call starts no later, and the run takes no longer.
-/
namespace OrderBench

open Phase (Move begun startTimes)

/-! Schedules. -/

/-- Up to every moment, at least as many permits come free in the first list as in the second. -/
def Dominates (free free' : List Nat) : Prop := ∀ x, free'.countP (· ≤ x) ≤ free.countP (· ≤ x)

theorem dominates_replicate {permits permits' : Nat} (h : permits' ≤ permits) (x : Nat) :
    Dominates (List.replicate permits x) (List.replicate permits' x) := by
  intro y
  rw [List.countP_replicate, List.countP_replicate]
  split
  · exact h
  · exact Nat.le_refl 0

section
variable {first first' l l' : Nat} {later later' : List Nat}

theorem countP_head_le (h : (first :: later).Pairwise (· ≤ ·)) {x : Nat} (hx : x < first) :
    (first :: later).countP (· ≤ x) = 0 := by
  rw [List.countP_eq_zero]
  intro y hy
  have hle : first ≤ y := by
    rcases List.mem_cons.mp hy with rfl | hy
    · exact Nat.le_refl _
    · exact (List.pairwise_cons.mp h).1 y hy
  rw [decide_eq_true_iff]
  exact Nat.not_le_of_lt (Nat.lt_of_lt_of_le hx hle)

theorem countP_head_pos (first : Nat) (later : List Nat) : 0 < (first :: later).countP (· ≤ first) :=
  List.countP_pos_iff.mpr ⟨first, List.mem_cons_self .., decide_eq_true (Nat.le_refl _)⟩

theorem Dominates.head_le (h : Dominates (first :: later) (first' :: later'))
    (hs : (first :: later).Pairwise (· ≤ ·)) : first ≤ first' := by
  by_contra hlt
  have hpos := Nat.lt_of_lt_of_le (countP_head_pos first' later') (h first')
  rw [countP_head_le hs (Nat.lt_of_not_le hlt)] at hpos
  exact Nat.lt_irrefl 0 hpos

/-- Each side's first permit is taken, and comes free again no later on the side that dominates. -/
theorem Dominates.start (h : Dominates (first :: later) (first' :: later')) (hs : (first :: later).Pairwise (· ≤ ·))
    (hs' : (first' :: later').Pairwise (· ≤ ·)) (hl : l ≤ l') :
    Dominates (later.orderedInsert (· ≤ ·) (first + l)) (later'.orderedInsert (· ≤ ·) (first' + l')) := by
  intro x
  have hfirst := h.head_le hs
  have hcount := h x
  rw [(List.perm_orderedInsert _ _ _).countP_eq, (List.perm_orderedInsert _ _ _).countP_eq]
  simp only [List.countP_cons, decide_eq_true_iff] at hcount ⊢
  by_cases hx : first' ≤ x
  · rw [if_pos hx, if_pos (hfirst.trans hx)] at hcount
    split <;> split <;> omega
  · -- before the first permit of the other side comes free, none of that side has
    have hzero := countP_head_le hs' (Nat.lt_of_not_le hx)
    simp only [List.countP_cons, decide_eq_true_iff] at hzero
    rw [if_neg (by omega : ¬first' + l' ≤ x)]
    omega

end

theorem starts_le {free free' ls ls' : List Nat} (h : Dominates free free') (hs : free.Pairwise (· ≤ ·))
    (hs' : free'.Pairwise (· ≤ ·)) (hne : free' ≠ []) (hl : List.Forall₂ (· ≤ ·) ls ls') :
    List.Forall₂ (· ≤ ·) (starts free ls) (starts free' ls') := by
  induction hl generalizing free free' with
  | nil => rw [starts_nil, starts_nil]; exact .nil
  | @cons l l' ls ls' hl _ ih =>
      cases free' with
      | nil => exact absurd rfl hne
      | cons first' later' =>
          cases free with
          | nil => exact absurd (Nat.lt_of_lt_of_le (countP_head_pos first' later') (h first')) (Nat.lt_irrefl 0)
          | cons first later =>
              have hne' : later'.orderedInsert (· ≤ ·) (first' + l') ≠ [] := by
                rw [← List.length_pos_iff, List.orderedInsert_length]
                exact Nat.succ_pos _
              exact .cons (h.head_le hs) (ih (h.start hs hs' hl) ((List.pairwise_cons.mp hs).2.orderedInsert _ _)
                ((List.pairwise_cons.mp hs').2.orderedInsert _ _) hne')

theorem ends_le {times times' ls ls' : List Nat} (ht : List.Forall₂ (· ≤ ·) times times')
    (hl : List.Forall₂ (· ≤ ·) ls ls') : List.Forall₂ (· ≤ ·) (ends times ls) (ends times' ls') := by
  induction ht generalizing ls ls' with
  | nil => exact .nil
  | cons ht _ ih =>
      cases hl with
      | nil => exact .nil
      | cons hl hls => exact .cons (Nat.add_le_add ht hl) (ih hls)

theorem longest_le_longest {ls ls' : List Nat} (h : List.Forall₂ (· ≤ ·) ls ls') : longest ls ≤ longest ls' := by
  induction h with
  | nil => exact Nat.le_refl _
  | cons h _ ih => exact max_le_max h ih

/-! Runs. -/

namespace Session

variable (s : Session)

/-- What the service takes for the placement with that index, counted from the next one on. -/
def placeLatency (index : Nat) : Nat :=
  (s.venue (s.tally.placed + index + 1) (.place (s.desk.order index))).latency

/-- A run of placements that takes this time, its calls made at these moments, all counted from its beginning. -/
def PlacesAt (total : Nat) (times : List Nat) (time : Nat) : Prop :=
  times.length = total ∧ ∃ record t, s.run .place total = .ok (record, t) ∧ record.elapsed = .ofNanos time ∧
    t.desk.journal.calls = s.desk.journal.calls ++
      (times.map (s.now + ·)).zip ((s.desk.orders total).map Call.place)

theorem runPhase_scheduled (task : Task) (total : Nat) (hpos : 0 < s.permits) :
    ∃ ms p, Phase.Run (.opening s.desk task total s.permits) ms p ∧ p.Ended ∧
      (s.runPhase task total).2.desk = p.desk ∧
      let latencies := s.tally.latencies s.venue (begun ms)
      let times := starts (List.replicate s.permits 0) latencies
      startTimes ms = times.map (s.now + ·) ∧ (s.runPhase task total).2.now = s.now + longest (ends times latencies) := by
  obtain ⟨ms, hf, he, htimes, hnow⟩ := Timeline.run_scheduled s.venue (s.timeline task total) rfl rfl hpos
  exact ⟨ms, _, hf.run, he, rfl, htimes, hnow⟩

theorem latencies_place {total : Nat} {ms : List Move} (h : begun ms = (s.desk.orders total).map (some ∘ Call.place)) :
    s.tally.latencies s.venue (begun ms) = (List.range total).map s.placeLatency := by
  rw [h, Tally.latencies, Tally.replies_place, Desk.orders]
  apply List.ext_getElem?
  intro index
  rw [List.getElem?_map, List.getElem?_mapIdx, List.getElem?_map, List.getElem?_map]
  cases hi : (List.range total)[index]? with
  | none => rfl
  | some i =>
      obtain ⟨-, rfl⟩ := List.getElem?_eq_some_iff.mp hi
      simp only [List.getElem_range]
      rfl

theorem run_place_scheduled (total : Nat) (hpos : 0 < s.permits) :
    let latencies := (List.range total).map s.placeLatency
    let times := starts (List.replicate s.permits 0) latencies
    s.PlacesAt total times (longest (ends times latencies)) := by
  obtain ⟨ms, p, hr, he, hdesk, htimes, hnow⟩ := s.runPhase_scheduled .place total hpos
  have hbegun : begun ms = (s.desk.orders total).map (some ∘ Call.place) := by
    rw [(Phase.run_placing hr).begun, he.1, Phase.run_total hr]
  rw [s.latencies_place hbegun] at htimes hnow
  have hne : List.replicate s.permits 0 ≠ [] := by simpa using Nat.ne_of_gt hpos
  let elapsed : Duration := .ofNanos ((s.runPhase .place total).2.now - s.now)
  have hrun : s.run .place total = .ok (⟨.place, (s.runPhase .place total).1, elapsed, none⟩,
      (s.runPhase .place total).2.note (.finished .place (s.runPhase .place total).1.length elapsed)) := rfl
  refine ⟨by rw [length_starts hne, List.length_map, List.length_range], _, _, hrun, ?_, ?_⟩
  · exact congrArg Duration.ofNanos (hnow ▸ Nat.add_sub_cancel_left ..)
  · have hsent : ms.filterMap Move.sent? = (startTimes ms).zip ((s.desk.orders total).map Call.place) :=
      Phase.sent_eq_zip (by rw [hbegun, List.map_map])
    have hcalls := Phase.run_calls hr
    rw [hsent, htimes, ← hdesk] at hcalls
    exact (Journal.calls_aside trivial : Journal.calls (.finished .place _ elapsed :: _) = _).trans hcalls

end Session

/-- With no fewer permits, and a service that takes no longer for any placement, each call of a run of placements starts
no later, and the run takes no longer. -/
theorem place_run_no_slower (s s' : Session) (total : Nat) (hpos : 0 < s'.permits) (hpermits : s'.permits ≤ s.permits)
    (hlatency : ∀ index < total, s.placeLatency index ≤ s'.placeLatency index) :
    ∃ times time times' time', s.PlacesAt total times time ∧ s'.PlacesAt total times' time' ∧
      List.Forall₂ (· ≤ ·) times times' ∧ time ≤ time' := by
  have hls : List.Forall₂ (· ≤ ·) ((List.range total).map s.placeLatency) ((List.range total).map s'.placeLatency) := by
    rw [List.forall₂_map_left_iff, List.forall₂_map_right_iff, List.forall₂_same]
    exact fun index hi => hlatency index (List.mem_range.mp hi)
  have hsorted (permits : Nat) : (List.replicate permits 0).Pairwise (· ≤ ·) :=
    List.pairwise_replicate.mpr (.inr (Nat.le_refl _))
  have hne : List.replicate s'.permits 0 ≠ [] := by simpa using Nat.ne_of_gt hpos
  have htimes := starts_le (dominates_replicate hpermits 0) (hsorted _) (hsorted _) hne hls
  exact ⟨_, _, _, _, s.run_place_scheduled total (Nat.lt_of_lt_of_le hpos hpermits), s'.run_place_scheduled total hpos,
    htimes, longest_le_longest (ends_le htimes hls)⟩

/-- Placements of three, two and one nanoseconds on one permit, and with two permits on a service that takes one less for
each but the first. -/
theorem place_run_no_slower_with_two_permits :
    let desk : Desk := { symbol := "BTCUSDT", draws := .cyclic #[1] }
    let slow : Session := { venue := fun number _ => ⟨4 - number, .ok ⟨200, ""⟩⟩, permits := 1, desk }
    let fast : Session :=
      { venue := fun number _ => ⟨if number = 1 then 3 else 3 - number, .ok ⟨503, ""⟩⟩, permits := 2, desk }
    0 < slow.permits ∧ slow.permits ≤ fast.permits ∧
      (∀ index < 3, fast.placeLatency index ≤ slow.placeLatency index) ∧
      ∃ times time times' time', fast.PlacesAt 3 times time ∧ slow.PlacesAt 3 times' time' ∧
        List.Forall₂ (· ≤ ·) times times' ∧ time ≤ time' := by
  intro desk slow fast
  have hlatency : ∀ index < 3, fast.placeLatency index ≤ slow.placeLatency index := by decide
  exact ⟨by decide, by decide, hlatency, place_run_no_slower fast slow 3 (by decide) (by decide) hlatency⟩

end OrderBench
