import OrderBench.Proofs.MixedRun

/-!
Over-provisioning. A healthy service leaves more open orders after the warm-up than there are tasks, so every
task does what its coin says, and the open orders grow by the placements less the cancels.
-/
namespace OrderBench

open Phase (Move begun)

/-- A healthy answer is 200, with an order id for a placement. -/
def Answer.Healthy (answer : Answer) : Call → Prop
  | .place _ => ∃ body id, answer.outcome = .ok ⟨200, body⟩ ∧ orderId body = .ok (some id)
  | .cancel _ => ∃ body, answer.outcome = .ok ⟨200, body⟩

theorem orderId_of_toOption {body id : String} (h : (orderId body).toOption = some (some id)) :
    orderId body = .ok (some id) := by
  cases ho : orderId body with
  | error fault =>
      rw [ho] at h
      cases h
  | ok found =>
      rw [ho] at h
      exact congrArg Except.ok (Option.some.inj h)

theorem Answer.offer_eq {answer : Answer} {body id : String} (ho : answer.outcome = .ok ⟨200, body⟩)
    (hid : orderId body = .ok (some id)) (order : OrderRequest) : (Call.place order).offer? answer = some id := by
  simp [Call.offer?, Call.attempt, ho, Call.verdict, Response.isOk, hid, Attempt.orderId?]

theorem Answer.Healthy.attempt {answer : Answer} {call : Call} (h : answer.Healthy call) :
    (call.attempt answer).succeeded = true ∧
      (call.attempt answer).offered?.isSome = decide ((call.attempt answer).kind = .place) := by
  cases call with
  | place order =>
      obtain ⟨body, id, ho, hid⟩ := h
      simp [Call.attempt, ho, Call.verdict, Response.isOk, hid, Attempt.succeeded, Attempt.offered?, Call.kind,
        Attempt.orderId?]
  | cancel id =>
      obtain ⟨body, ho⟩ := h
      simp [Call.attempt, ho, Call.verdict, Response.isOk, Attempt.succeeded, Attempt.offered?, Call.kind]

namespace Phase

def Healthy (ms : List Move) : Prop :=
  ∀ (i : Nat) (call : Call) (answer : Answer), Move.finish i call answer ∈ ms → answer.Healthy call

variable {desk : Desk} {task : Task} {total permits : Nat} {ms : List Move} {p : Phase}

theorem run_healthy (h : Run (opening desk task total permits) ms p) (he : p.Ended) (hh : Healthy ms)
    (hsent : none ∉ begun ms) {a : Attempt} (ha : a ∈ p.results) :
    a.succeeded = true ∧ a.offered?.isSome = decide (a.kind = .place) := by
  obtain ⟨i, hi⟩ := List.mem_iff_getElem?.mp ha
  obtain ⟨-, hb⟩ | ⟨call, answer, hm, rfl⟩ := run_result_cases h he hi
  · exact absurd (List.mem_of_getElem? hb) hsent
  · exact (hh i call answer hm).attempt

theorem run_length_offers (h : Run (opening desk task total permits) ms p) (he : p.Ended) (hh : Healthy ms)
    (hsent : none ∉ begun ms) :
    (ms.filterMap Move.offered?).length = p.results.countP (·.kind = .place) := by
  rw [(run_offers_perm h).length_eq, List.length_filterMap_eq_countP]
  apply List.countP_congr
  intro a ha
  rw [(run_healthy h he hh hsent ha).2]

end Phase

namespace WarmRun

variable {total permits : Nat} {desk : Desk} (r : WarmRun .both total desk permits)

/-- All calls of the run get healthy answers, and the ids of its placements are new, each one to the others and
to the open orders before the run. -/
structure Healthy : Prop where
  warmUp : Phase.Healthy r.warmUpMoves
  measured : Phase.Healthy r.measuredMoves
  distinct : ((r.warmUpMoves ++ r.measuredMoves).filterMap Move.offered?).Nodup
  fresh : ∀ id ∈ (r.warmUpMoves ++ r.measuredMoves).filterMap Move.offered?, id ∉ desk.openOrders.toList

/-- The coin of a measured task: the placements of the warm-up take two draws each. -/
def heads (_ : WarmRun .both total desk permits) : Nat → Bool :=
  (desk.draws.skip (2 * (total + total / 2))).heads

/-- What a run of mixed tasks does on a healthy service. -/
structure HealthyAccount : Prop where
  requested : r.warmup.requested = total + total / 2
  created : r.warmup.created = total + total / 2
  length : r.measured.results.length = total
  succeeded : ∀ a ∈ r.measured.results, a.succeeded = true
  coins : ∀ (i : Nat) (p : Phase) (call : Option Call), Phase.Begins r.ready r.measuredMoves i p call →
    p.desk.draws.coin.1 = r.heads i
  kinds : ∀ i : Nat, i < total → ∃ a, r.measured.results[i]? = some a ∧ (a.kind = .cancel ↔ r.heads i = true)
  size : r.measured.desk.openOrders.size + r.measured.results.countP (·.kind = .cancel) =
    desk.openOrders.size + (total + total / 2) + r.measured.results.countP (·.kind = .place)

variable {r}

theorem sent_warmUp : none ∉ begun r.warmUpMoves := by
  rw [(Phase.run_placing r.warmUp_run).begun]
  simp

theorem draws_warmUp : r.warmUp.desk.draws = desk.draws.skip (2 * (total + total / 2)) := by
  rw [(Phase.run_placing r.warmUp_run).draws, r.warmUp_ended.1, Phase.run_total r.warmUp_run, r.count_both]
  rfl

theorem Healthy.nodup (hr : r.Healthy) :
    (desk.openOrders.toList ++ r.warmUpMoves.filterMap Move.offered? ++
      r.measuredMoves.filterMap Move.offered?).Nodup := by
  rw [List.append_assoc, ← List.filterMap_append]
  exact List.nodup_append.mpr ⟨desk.openOrders.nodup, hr.distinct, fun a ha b hb he => hr.fresh b hb (he ▸ ha)⟩

theorem Healthy.stock_eq (hr : r.Healthy) :
    r.stock = desk.openOrders.toList ++ r.warmUpMoves.filterMap Move.offered? :=
  (Phase.run_placing r.warmUp_run).openOrders.trans (eraseDups_of_nodup (List.nodup_append.mp hr.nodup).1)

theorem Healthy.length_stock (hr : r.Healthy) :
    r.stock.length = desk.openOrders.size + (total + total / 2) := by
  have hplaces : r.warmUp.results.countP (·.kind = .place) = r.warmUp.results.length := by
    rw [List.countP_eq_length]
    intro a ha
    rw [Phase.run_place_kind r.warmUp_run r.warmUp_ended ha]
    rfl
  rw [hr.stock_eq, List.length_append, Phase.run_length_offers r.warmUp_run r.warmUp_ended hr.warmUp sent_warmUp,
    hplaces, Phase.run_length_results r.warmUp_run r.warmUp_ended, r.count_both, OpenOrders.size_eq_length]

theorem Healthy.created (hr : r.Healthy) : r.warmup.created = total + total / 2 := by
  have hall : r.warmUp.results.countP Attempt.succeeded = r.warmUp.results.length := by
    rw [List.countP_eq_length]
    exact fun a ha => (Phase.run_healthy r.warmUp_run r.warmUp_ended hr.warmUp sent_warmUp ha).1
  exact hall.trans ((Phase.run_length_results r.warmUp_run r.warmUp_ended).trans r.count_both)

/-- While the measured phase goes on, there are orders enough for its tasks. -/
theorem Healthy.stocked (hr : r.Healthy) {ms after : List Move} {p : Phase} (hm : r.measuredMoves = ms ++ after)
    (h : Phase.Run r.ready ms p) :
    Phase.Stocked (r.warmUp.desk.note (.warmedUp r.warmup.created)) ms p := by
  refine Phase.run_stocked h ?_ ?_
  · have hlen := hr.length_stock
    rw [WarmRun.stock] at hlen
    simp only [Desk.note_openOrders, hlen, Workload.measuredCount]
    omega
  · have hn := hr.nodup
    rw [← hr.stock_eq, hm, List.filterMap_append, ← List.append_assoc] at hn
    exact (List.nodup_append.mp hn).1

theorem Healthy.account (hr : r.Healthy) : r.HealthyAccount := by
  have hrun := r.measured_mixed
  have he := r.measured_ended
  have hstocked := hr.stocked (List.append_nil _).symm r.measured_run
  have hheads : (r.warmUp.desk.note (.warmedUp r.warmup.created)).draws.heads = r.heads := by
    rw [Desk.note_draws, draws_warmUp, heads]
  have hsent : none ∉ begun r.measuredMoves := by
    intro hm
    have := List.mem_map_of_mem (f := Option.map Call.kind) hm
    rw [hstocked.begun] at this
    simp at this
  have hlen : r.measured.results.length = total := Phase.run_length_results hrun he
  refine ⟨r.requested_eq.trans r.count_both, hr.created, hlen,
    fun a ha => (Phase.run_healthy hrun he hr.measured hsent ha).1, ?_, ?_, ?_⟩
  · rintro i p call ⟨before, time, after, q, hm, hp, rfl, -⟩
    rw [(hr.stocked hm hp).draws, ← hheads]
    rfl
  · intro i hi
    have hres := List.getElem?_eq_getElem (hlen.symm ▸ hi)
    have hk : (r.measured.results.map Attempt.kind)[i]? = _ :=
      congrArg (·[i]?) (Phase.run_stocked_kinds hrun he hstocked)
    rw [List.getElem?_map, hres, List.getElem?_map, List.getElem?_range hi, Option.map_some, Option.map_some,
      Option.some_inj, Draws.kind, hheads] at hk
    refine ⟨_, hres, ?_⟩
    rw [hk]
    simp
  · have hoffers := Phase.run_length_offers hrun he hr.measured hsent
    have hcancels := Phase.run_stocked_cancels hrun he hstocked
    have hopen := congrArg List.length hstocked.openOrders
    have hstock := hr.length_stock
    have hle := Draws.countP_heads_le (r.warmUp.desk.note (.warmedUp r.warmup.created)).draws total
    rw [List.length_drop, List.length_append, hoffers, he.1, Phase.run_total hrun, ← hcancels] at hopen
    rw [← hcancels] at hle
    rw [OpenOrders.size_eq_length, hopen]
    simp only [Desk.note_openOrders]
    rw [WarmRun.stock] at hstock
    omega

end WarmRun

namespace Session

/-- The answers of a service from now on: to so many placements 200, with ids of their own that are not open, and
to all cancels 200. -/
structure Thrives (s : Session) (count : Nat) (ids : Nat → OrderRequest → String) : Prop where
  places : ∀ k order, k < count → ∃ body, (s.venue (s.tally.placed + k + 1) (.place order)).outcome = .ok ⟨200, body⟩ ∧
    orderId body = .ok (some (ids k order))
  cancels : ∀ number id, ∃ body, (s.venue number (.cancel id)).outcome = .ok ⟨200, body⟩
  distinct : ∀ k l order other, k < count → l < count → ids k order = ids l other → k = l
  fresh : ∀ k order, k < count → ids k order ∉ s.desk.openOrders.toList

variable {s : Session} {count : Nat} {ids : Nat → OrderRequest → String} {t : Tally} {base : Nat}
  {desk : Desk} {task : Task} {total permits : Nat} {ms : List Move} {p : Phase}

/-- The answer to a placement in a phase, after so many placements before the phase. -/
theorem Answers.place (ha : Answers s.venue t ms) (ht : t.placed = s.tally.placed + base)
    (htold : Phase.Told ms p) {i : Nat} {order : OrderRequest} {answer : Answer}
    (hm : Move.finish i (.place order) answer ∈ ms) :
    answer = s.venue (s.tally.placed + (base + Tally.placements ((begun ms).take i)) + 1) (.place order) ∧
      Tally.placements ((begun ms).take i) < Tally.placements (begun ms) := by
  have hb := (htold.finished i _ answer hm).1
  have hi := ha i _ answer hm
  rw [Tally.replies_getElem?, hb, Option.map_some, Option.map_some, Option.some_inj, Option.some_inj] at hi
  refine ⟨?_, Tally.placements_take_lt_placements hb⟩
  rw [← hi, Tally.count, Tally.after_placed, ht, Nat.add_assoc s.tally.placed]

theorem Answers.cancel (ha : Answers s.venue t ms) (htold : Phase.Told ms p) {i : Nat} {id : String} {answer : Answer}
    (hm : Move.finish i (.cancel id) answer ∈ ms) : ∃ number, answer = s.venue number (.cancel id) := by
  have hi := ha i _ answer hm
  rw [Tally.replies_getElem?, (htold.finished i _ answer hm).1, Option.map_some, Option.map_some, Option.some_inj,
    Option.some_inj] at hi
  exact ⟨_, hi.symm⟩

theorem Thrives.healthy (hs : s.Thrives count ids) (ha : Answers s.venue t ms) (ht : t.placed = s.tally.placed + base)
    (hc : base + Tally.placements (begun ms) ≤ count) (htold : Phase.Told ms p) : Phase.Healthy ms := by
  intro i call answer hm
  cases call with
  | place order =>
      obtain ⟨rfl, hlt⟩ := ha.place ht htold hm
      obtain ⟨body, ho, hid⟩ := hs.places (base + Tally.placements ((begun ms).take i)) order (by omega)
      exact ⟨body, _, ho, hid⟩
  | cancel id =>
      obtain ⟨number, rfl⟩ := ha.cancel htold hm
      exact hs.cancels number id

theorem Thrives.offered (hs : s.Thrives count ids) (ha : Answers s.venue t ms) (ht : t.placed = s.tally.placed + base)
    (hc : base + Tally.placements (begun ms) ≤ count)
    (h : Phase.Run (.opening desk task total permits) ms p) (he : p.Ended) {i : Nat} {id : String}
    (hid : p.results[i]?.bind Attempt.offered? = some id) :
    ∃ order, (begun ms)[i]? = some (some (.place order)) ∧
      id = ids (base + Tally.placements ((begun ms).take i)) order := by
  obtain ⟨a, hres, hoff⟩ := Option.bind_eq_some_iff.mp hid
  obtain ⟨rfl, -⟩ | ⟨call, answer, hm, rfl⟩ := Phase.run_result_cases h he hres
  · cases hoff
  · have hb := ((Phase.run_told h).finished i call answer hm).1
    cases call with
    | cancel id => simp [Call.attempt_offered, Call.offer?] at hoff
    | place order =>
        obtain ⟨rfl, hlt⟩ := ha.place ht (Phase.run_told h) hm
        obtain ⟨body, ho, hbody⟩ := hs.places (base + Tally.placements ((begun ms).take i)) order (by omega)
        rw [Call.attempt_offered, Answer.offer_eq ho hbody order, Option.some_inj] at hoff
        exact ⟨order, hb, hoff.symm⟩

theorem Thrives.offers (hs : s.Thrives count ids) (ha : Answers s.venue t ms) (ht : t.placed = s.tally.placed + base)
    (hc : base + Tally.placements (begun ms) ≤ count)
    (h : Phase.Run (.opening desk task total permits) ms p) (he : p.Ended) :
    (ms.filterMap Move.offered?).Nodup ∧ ∀ id ∈ ms.filterMap Move.offered?, ∃ k order, base ≤ k ∧
      k < base + Tally.placements (begun ms) ∧ id = ids k order := by
  have hoffered {i : Nat} {id : String} (hid : p.results[i]?.bind Attempt.offered? = some id) :=
    hs.offered ha ht hc h he hid
  have hperm : (ms.filterMap Move.offered?).Perm
      ((List.range p.results.length).filterMap fun i => p.results[i]?.bind Attempt.offered?) := by
    rw [filterMap_range_getElem?]
    exact Phase.run_offers_perm h
  refine ⟨hperm.nodup_iff.mpr (List.nodup_range.filterMap ?_), ?_⟩
  · -- of two tasks the later one has the greater number, and so another id
    intro i j id hi hj
    obtain ⟨order, hb, rfl⟩ := hoffered hi
    obtain ⟨other, hb', he⟩ := hoffered hj
    have hlt := Tally.placements_take_lt_placements hb
    have hlt' := Tally.placements_take_lt_placements hb'
    have hk := hs.distinct _ _ _ _ (by omega) (by omega) he
    rcases Nat.lt_trichotomy i j with hij | hij | hij
    · have := Tally.placements_take_lt hb hij
      omega
    · exact hij
    · have := Tally.placements_take_lt hb' hij
      omega
  · intro id hid
    obtain ⟨i, -, hi⟩ := List.mem_filterMap.mp (hperm.mem_iff.mp hid)
    obtain ⟨order, hb, rfl⟩ := hoffered hi
    exact ⟨_, order, Nat.le_add_right _ _, Nat.add_lt_add_left (Tally.placements_take_lt_placements hb) _, rfl⟩

end Session

theorem WarmRun.healthy_of_thrives {s : Session} {total : Nat} {ids : Nat → OrderRequest → String}
    (hs : s.Thrives (total + total / 2 + total) ids) (r : WarmRun .both total s.desk s.permits)
    (ha : Session.Answers s.venue s.tally r.warmUpMoves)
    (ha' : Session.Answers s.venue (s.tally.after (begun r.warmUpMoves)) r.measuredMoves) : r.Healthy := by
  let base := Tally.placements (begun r.warmUpMoves)
  have hbase : base ≤ total + total / 2 := by
    have := Tally.placements_le_length (begun r.warmUpMoves)
    rwa [Phase.run_length_begun r.warmUp_run r.warmUp_ended, r.count_both] at this
  have hmeasured : Tally.placements (begun r.measuredMoves) ≤ total := by
    have := Tally.placements_le_length (begun r.measuredMoves)
    rwa [Phase.run_length_begun r.measured_mixed r.measured_ended] at this
  have ht : (s.tally.after (begun r.warmUpMoves)).placed = s.tally.placed + base := Tally.after_placed _ _
  have ht₀ : s.tally.placed = s.tally.placed + 0 := rfl
  obtain ⟨hwarm, hwarm'⟩ := hs.offers ha ht₀ (by omega) r.warmUp_run r.warmUp_ended
  obtain ⟨hmeas, hmeas'⟩ := hs.offers ha' ht (by omega) r.measured_mixed r.measured_ended
  refine ⟨hs.healthy ha ht₀ (by omega) (Phase.run_told r.warmUp_run),
    hs.healthy ha' ht (by omega) (Phase.run_told r.measured_mixed), ?_, ?_⟩ <;> rw [List.filterMap_append]
  · refine List.nodup_append.mpr ⟨hwarm, hmeas, ?_⟩
    intro id hid id' hid' he
    obtain ⟨k, order, -, hk, rfl⟩ := hwarm' id hid
    obtain ⟨l, other, hl, hl', rfl⟩ := hmeas' id' hid'
    have := hs.distinct k l order other (by omega) (by omega) he
    omega
  · intro id hid
    rcases List.mem_append.mp hid with hid | hid
    · obtain ⟨k, order, -, hk, rfl⟩ := hwarm' id hid
      exact hs.fresh k order (by omega)
    · obtain ⟨k, order, -, hk, rfl⟩ := hmeas' id hid
      exact hs.fresh k order (by omega)

end OrderBench
