import OrderBench.Proofs.Placement
import OrderBench.Proofs.Session

/-!
Runs of placements on a service that answers each placement by its number. What they come to does not
depend on the permits, nor on the order in which the calls end, but for the order of the open orders.
-/
namespace OrderBench

open Phase (Move begun)

namespace Phase

/-- The call of each task is answered as its index tells. -/
def Answered (answers : Nat → Answer) (ms : List Move) : Prop :=
  ∀ (i : Nat) (call : Call) (answer : Answer), Move.finish i call answer ∈ ms → answer = answers i

variable {desk : Desk} {total permits : Nat} {ms : List Move} {p : Phase} {answers : Nat → Answer}

theorem run_results_place (h : Run (opening desk .place total permits) ms p) (he : p.Ended)
    (ha : Answered answers ms) :
    p.results = (desk.orders total).mapIdx fun i order => (Call.place order).attempt (answers i) := by
  apply List.ext_getElem?
  intro i
  by_cases hi : i < total
  · have hb := run_placed h he hi
    obtain ⟨answer, hm⟩ := run_answered h he hb
    rw [run_result_finished h he hm, ha i _ answer hm, List.getElem?_mapIdx, Desk.orders, List.getElem?_map,
      List.getElem?_range hi]
    rfl
  · rw [List.getElem?_eq_none, List.getElem?_eq_none]
    · simpa [Desk.orders] using hi
    · rw [run_length_results h he]
      exact Nat.le_of_not_lt hi

end Phase

/-- Two desks with the same symbol, the same draws ahead of them and the same open orders. -/
structure Desk.Alike (d d' : Desk) : Prop where
  symbol : d.symbol = d'.symbol
  draws : ∀ k, d.draws.source (d.draws.used + k) = d'.draws.source (d'.draws.used + k)
  openOrders : d.openOrders.toList.Perm d'.openOrders.toList

/-- Two desks before and after the same placements, with the attempts that were made at each. -/
structure PlacedAlike (answers : Nat → Answer) (total : Nat) (d e : Desk) (as : List Attempt)
    (d' e' : Desk) (as' : List Attempt) : Prop where
  attempts : as = as'
  /-- The calls with an index carry the same order, and their own answer alone makes the attempt. -/
  orders : ∃ orders : List OrderRequest, orders.length = total ∧
    as = orders.mapIdx (fun i order => (Call.place order).attempt (answers i)) ∧
    e.journal.calls.map Prod.snd = d.journal.calls.map Prod.snd ++ orders.map Call.place ∧
    e'.journal.calls.map Prod.snd = d'.journal.calls.map Prod.snd ++ orders.map Call.place
  warnings : ∃ n, e.journal.warnings.length = d.journal.warnings.length + n ∧
    e'.journal.warnings.length = d'.journal.warnings.length + n
  openOrders : e.openOrders.toList.Perm e'.openOrders.toList
  size : e.openOrders.size = e'.openOrders.size

theorem PlacedAlike.note {answers : Nat → Answer} {total : Nat} {d e d' e' : Desk} {as as' : List Attempt}
    (h : PlacedAlike answers total d e as d' e' as') {x y : Entry} (hx : x.Aside) (hy : y.Aside) :
    PlacedAlike answers total d (e.note x) as d' (e'.note y) as' where
  attempts := h.attempts
  orders := by
    rw [Desk.note_journal, Desk.note_journal, Journal.calls_aside hx, Journal.calls_aside hy]
    exact h.orders
  warnings := by
    rw [Desk.note_journal, Desk.note_journal, Journal.warnings_aside hx, Journal.warnings_aside hy]
    exact h.warnings
  openOrders := h.openOrders
  size := h.size

open Phase in
theorem Phase.runs_alike {answers : Nat → Answer} {total permits permits' : Nat} {desk desk' : Desk}
    {ms ms' : List Move} {p p' : Phase} (hd : desk.Alike desk')
    (h : Run (opening desk .place total permits) ms p) (he : p.Ended) (ha : Answered answers ms)
    (h' : Run (opening desk' .place total permits') ms' p') (he' : p'.Ended) (ha' : Answered answers ms') :
    PlacedAlike answers total desk p.desk p.results desk' p'.desk p'.results := by
  have horders := Desk.orders_congr hd.symbol hd.draws total
  have hres := run_results_place h he ha
  have hsame : p.results = p'.results := by rw [hres, run_results_place h' he' ha', horders]
  have hperm : p.desk.openOrders.toList.Perm p'.desk.openOrders.toList := by
    apply (List.perm_ext_iff_of_nodup p.desk.openOrders.nodup p'.desk.openOrders.nodup).mpr
    intro id
    have hid := run_mem_openOrders h he id
    have hid' := run_mem_openOrders h' he' id
    rw [← hsame, ← hd.openOrders.mem_iff] at hid'
    exact hid.trans hid'.symm
  have hsize : p.desk.openOrders.size = p'.desk.openOrders.size := by
    rw [OpenOrders.size_eq_length, OpenOrders.size_eq_length, hperm.length_eq]
  refine ⟨hsame, ⟨desk.orders total, by simp [Desk.orders], hres, run_calls_place h he, ?_⟩, ?_, hperm, hsize⟩
  · rw [horders]
    exact run_calls_place h' he'
  · -- what was refused is what was offered less the growth of the open orders
    have hw := run_warnings h he
    have hw' := run_warnings h' he'
    have hopen : desk.openOrders.size = desk'.openOrders.size := by
      rw [OpenOrders.size_eq_length, OpenOrders.size_eq_length, hd.openOrders.length_eq]
    have hle := run_size_le h he
    rw [← hsame] at hw'
    exact ⟨desk.openOrders.size + (p.results.filterMap Attempt.orderId?).length - p.desk.openOrders.size,
      by omega, by omega⟩

namespace Session

variable (s : Session)

/-- The service answers the placements from now on by their numbers. -/
def PlacesAs (answers : Nat → Answer) : Prop :=
  ∀ number order, s.venue (s.tally.placed + number + 1) (.place order) = answers number

theorem run_place {answers : Nat → Answer} (total : Nat) (hpos : 0 < s.permits) (hv : s.PlacesAs answers) :
    ∃ r t ms p, s.run .place total = .ok (r, t) ∧ Phase.Run (.opening s.desk .place total s.permits) ms p ∧
      p.Ended ∧ Phase.Answered answers ms ∧ r.attempts = p.results ∧
      ∃ elapsed, t.desk = p.desk.note (.finished .place p.results.length elapsed) := by
  have hw : Workload.place.warmupCount total = .ok none := rfl
  obtain ⟨ms, p, now, peak, elapsed, hr, he, ha, hrun⟩ := s.run_direct hw hpos
  refine ⟨_, _, ms, p, hrun, hr, he, ?_, rfl, elapsed, rfl⟩
  intro i call answer hm
  have hi := ha i call answer hm
  rw [(Phase.run_placing hr).begun, Tally.replies_place, List.getElem?_mapIdx, Option.map_eq_some_iff] at hi
  obtain ⟨order, -, hi⟩ := hi
  exact (Option.some.inj hi).symm.trans (hv i order)

end Session

open Phase in
/-- A run of placements comes to the same under any permits, in whatever order its calls end. -/
theorem place_run_independent_of_permits (answers : Nat → Answer) (total : Nat) :
    (∀ (desk desk' : Desk) (permits permits' : Nat) (ms ms' : List Move) (p p' : Phase), desk.Alike desk' →
      Run (opening desk .place total permits) ms p → p.Ended → Answered answers ms →
      Run (opening desk' .place total permits') ms' p' → p'.Ended → Answered answers ms' →
        PlacedAlike answers total desk p.desk p.results desk' p'.desk p'.results) ∧
    ∀ s s' : Session, s.desk.Alike s'.desk → 0 < s.permits → 0 < s'.permits →
      s.PlacesAs answers → s'.PlacesAs answers →
        ∃ r t r' t', s.run .place total = .ok (r, t) ∧ s'.run .place total = .ok (r', t') ∧
          PlacedAlike answers total s.desk t.desk r.attempts s'.desk t'.desk r'.attempts := by
  refine ⟨fun _ _ _ _ _ _ _ _ hd h he ha h' he' ha' => runs_alike hd h he ha h' he' ha', ?_⟩
  intro s s' hd hpos hpos' hv hv'
  obtain ⟨r, t, ms, p, hrun, h, he, ha, hr, elapsed, ht⟩ := s.run_place total hpos hv
  obtain ⟨r', t', ms', p', hrun', h', he', ha', hr', elapsed', ht'⟩ := s'.run_place total hpos' hv'
  refine ⟨r, t, r', t', hrun, hrun', ?_⟩
  rw [hr, hr', ht, ht']
  exact (runs_alike hd h he ha h' he' ha').note trivial trivial

open Phase in
/-- Two placements that time out, one after the other or both at once; six on a service that gives the same
id to all, with one permit or four, the latest answered first. -/
theorem place_run_independent_of_one_or_four_permits :
    (∃ ms p ms' p', Run (opening { symbol := "BTCUSDT", draws := .cyclic #[1, 2] } .place 2 1) ms p ∧
      Run (opening { symbol := "BTCUSDT", draws := .cyclic #[1, 2] } .place 2 2) ms' p' ∧
      ended ms = [0, 1] ∧ ended ms' = [1, 0] ∧ p.results = p'.results) ∧
    let venue : Venue := fun number _ => ⟨10 - number, .ok ⟨200, "\x7b\"data\":\x7b\"orderId\":7\x7d\x7d"⟩⟩
    let desk : Desk := { symbol := "BTCUSDT", draws := .cyclic #[1, 2] }
    ∃ r t r' t', Session.run { venue, desk, permits := 1 } .place 6 = .ok (r, t) ∧
      Session.run { venue, desk, permits := 4 } .place 6 = .ok (r', t') ∧ r.attempts = r'.attempts ∧
      t.desk.openOrders.size = t'.desk.openOrders.size := by
  refine ⟨?_, ?_⟩
  · let late (i : Nat) : Answer := ⟨i, .error (.timeout ⟨10, 0⟩)⟩
    let desk : Desk := { symbol := "BTCUSDT", draws := .cyclic #[1, 2] }
    have h : Run (opening desk .place 2 1)
        [.start 0 _, .finish 0 _ (late 0), .start 0 _, .finish 1 _ (late 1)] _ :=
      (((Run.nil.snoc (.start rfl)).snoc (.finish rfl rfl)).snoc (.start rfl)).snoc (.finish rfl rfl)
    have h' : Run (opening desk .place 2 2)
        [.start 0 _, .start 0 _, .finish 1 _ (late 1), .finish 0 _ (late 0)] _ :=
      (((Run.nil.snoc (.start rfl)).snoc (.start rfl)).snoc (.finish rfl rfl)).snoc (.finish rfl rfl)
    refine ⟨_, _, _, _, h, h', rfl, rfl, ?_⟩
    have halike := (place_run_independent_of_permits late 2).1 desk desk 1 2 _ _ _ _
      ⟨rfl, fun _ => rfl, .refl _⟩ h ⟨rfl, rfl⟩ ?_ h' ⟨rfl, rfl⟩ ?_
    · exact halike.attempts
    · intro i call answer hm
      rcases hm with _ | ⟨_, _ | ⟨_, _ | ⟨_, _ | ⟨_, ⟨⟩⟩⟩⟩⟩ <;> rfl
    · intro i call answer hm
      rcases hm with _ | ⟨_, _ | ⟨_, _ | ⟨_, _ | ⟨_, ⟨⟩⟩⟩⟩⟩ <;> rfl
  · intro venue desk
    obtain ⟨r, t, r', t', h, h', halike⟩ := (place_run_independent_of_permits (fun number => venue (0 + number + 1)
      (.cancel "")) 6).2 { venue, desk, permits := 1 } { venue, desk, permits := 4 }
      ⟨rfl, fun _ => rfl, .refl _⟩ (by decide) (by decide) (fun _ _ => rfl) (fun _ _ => rfl)
    exact ⟨r, t, r', t', h, h', halike.attempts, halike.size⟩

end OrderBench
