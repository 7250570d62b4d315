import OrderBench.Proofs.Alignment
import OrderBench.Proofs.Permits
import OrderBench.Proofs.Placement

/-!
The random orders of a driver. Each placement of its runs takes two draws, one for the side and one for the price, and
each mixed task one before them for its coin; nothing else is drawn, whatever is answered and in whatever order. The
price is the one drawn, aligned down, which keeps it between the bounds, as the lower one is aligned to every tick.
-/
namespace OrderBench

/-! The order of two draws. -/

/-- An order for a symbol made from the draws at `k` and after it. Its price is a multiple of the tick, and the price
that was drawn lies less than a tick above it. -/
structure OrderRequest.Drawn (symbol : String) (source : Nat → Nat) (k : Nat) (order : OrderRequest) : Prop where
  symbol_eq : order.symbol = symbol
  quantity_eq : order.quantity = 100000000
  side_eq : order.side = if source k % 2 = 1 then .buy else .sell
  aligns : alignPrice (.ofInt (rawPrice (source (k + 1)))) (tickSize symbol) = .ok order.price
  dvd : (tickSize symbol).toInt ∣ order.price.toInt
  bounds : 5000000000000 ≤ order.price.toInt ∧ order.price.toInt ≤ 6000000000000
  below : order.price.toInt ≤ rawPrice (source (k + 1))
  near : rawPrice (source (k + 1)) < order.price.toInt + (tickSize symbol).toInt

theorem tickSize_pos (symbol : String) : 0 < (tickSize symbol).toInt := by
  obtain h | h := tickSize_eq symbol <;> rw [h] <;> decide

theorem tickSize_dvd_min (symbol : String) : (tickSize symbol).toInt ∣ minRandomPrice := by
  obtain h | h := tickSize_eq symbol <;> rw [h] <;> decide

theorem randomPrice_aligned (symbol : String) (draw : Nat) :
    Aligned (rawPrice draw) (tickSize symbol).toInt (randomPrice (tickSize symbol) draw).toInt := by
  obtain ⟨hl, hu⟩ := rawPrice_bounds draw
  have hraw : IsPrice (rawPrice draw) := by
    unfold minRandomPrice at hl
    unfold maxRandomPrice at hu
    unfold IsPrice
    omega
  obtain ⟨-, -, h⟩ := alignPrice_eq_ok_iff.mp (alignPrice_rawPrice symbol draw)
  rwa [toInt_ofInt_of_isPrice hraw] at h

/-- The least price is a multiple of the tick, so that no price is aligned to below it. -/
theorem randomPrice_bounds (symbol : String) (draw : Nat) :
    minRandomPrice ≤ (randomPrice (tickSize symbol) draw).toInt ∧
      (randomPrice (tickSize symbol) draw).toInt ≤ maxRandomPrice := by
  obtain ⟨hl, hu⟩ := rawPrice_bounds draw
  have h := randomPrice_aligned symbol draw
  have hleast : Aligned minRandomPrice (tickSize symbol).toInt minRandomPrice :=
    .refl (Int.ne_of_gt (tickSize_pos symbol)) (tickSize_dvd_min symbol)
  exact ⟨hleast.mono h hl, Int.le_trans h.le hu⟩

theorem Desk.draft_drawn (d : Desk) :
    (d.draft none none).1.Drawn d.symbol d.draws.source d.draws.used := by
  have h := randomPrice_aligned d.symbol (d.draws.source (d.draws.used + 1))
  have htick := abs_of_pos (tickSize_pos d.symbol)
  refine ⟨rfl, rfl, ?_, alignPrice_rawPrice _ _, h.dvd, randomPrice_bounds _ _, h.le, htick ▸ h.lt⟩
  exact if_congr decide_eq_true_iff rfl rfl

/-! What is drawn between two states of a desk. -/

def Call.order? : Call → Option OrderRequest
  | .place order => some order
  | .cancel _ => none

/-- The orders that were placed, in that order. -/
def Journal.placed (j : Journal) : List OrderRequest := j.calls.filterMap (·.2.order?)

theorem Journal.placed_cons (e : Entry) (j : Journal) :
    placed (e :: j) = placed j ++ (e.call?.bind (·.2.order?)).toList := by
  rw [placed, calls_cons, List.filterMap_append, placed]
  cases e.call? with
  | none => rfl
  | some c => cases h : c.2.order? <;> simp [h]

/-- The coins that a task tosses. -/
def Task.coins : Task → Nat
  | .place | .cancel => 0
  | .mixed => 1

namespace Desk

/-- The orders that are placed on the way from one state of a desk to another, each with the index of its first draw,
and so many coins that are tossed. -/
structure Deals (d : Desk) (deals : List (Nat × OrderRequest)) (coins : Nat) (e : Desk) : Prop where
  symbol : e.symbol = d.symbol
  source : e.draws.source = d.draws.source
  placed : e.journal.placed = d.journal.placed ++ deals.map Prod.snd
  drawn : ∀ x ∈ deals, x.2.Drawn d.symbol d.draws.source x.1
  apart : deals.Pairwise fun x y => x.1 + 2 ≤ y.1
  within : ∀ x ∈ deals, d.draws.used ≤ x.1 ∧ x.1 + 2 ≤ e.draws.used
  used : e.draws.used = d.draws.used + 2 * deals.length + coins

variable {d e f : Desk} {deals later : List (Nat × OrderRequest)} {coins tossed : Nat}

theorem Deals.trans (h : d.Deals deals coins e) (h' : e.Deals later tossed f) :
    d.Deals (deals ++ later) (coins + tossed) f where
  symbol := h'.symbol.trans h.symbol
  source := h'.source.trans h.source
  placed := by rw [h'.placed, h.placed, List.append_assoc, List.map_append]
  drawn := by
    have hlater := h'.drawn
    rw [h.symbol, h.source] at hlater
    exact List.forall_mem_append.mpr ⟨h.drawn, hlater⟩
  apart := by
    refine List.pairwise_append.mpr ⟨h.apart, h'.apart, fun x hx y hy => ?_⟩
    exact Nat.le_trans (h.within x hx).2 (h'.within y hy).1
  within := by
    have hfirst := h.used
    have hrest := h'.used
    intro x hx
    rcases List.mem_append.mp hx with hx | hx
    · have := h.within x hx
      omega
    · have := h'.within x hx
      omega
  used := by rw [h'.used, h.used, List.length_append]; omega

theorem Deals.tosses (hs : e.symbol = d.symbol) (hd : e.draws = d.draws.skip coins)
    (hj : e.journal.placed = d.journal.placed) : d.Deals [] coins e where
  symbol := hs
  source := by rw [hd]; rfl
  placed := by rw [hj]; exact (List.append_nil _).symm
  drawn := nofun
  apart := .nil
  within := nofun
  used := by rw [hd]; rfl

theorem Deals.same (hs : e.symbol = d.symbol) (hd : e.draws = d.draws) (hj : e.journal.calls = d.journal.calls) :
    d.Deals [] 0 e :=
  .tosses hs hd (congrArg (List.filterMap _) hj)

theorem begin_place_deals (d : Desk) (time : Nat) :
    d.Deals [(d.draws.used, (d.draft none none).1)] 0 (d.begin time .place).2 where
  symbol := rfl
  source := rfl
  placed := Journal.placed_cons _ _
  drawn := List.forall_mem_singleton.mpr d.draft_drawn
  apart := List.pairwise_singleton _ _
  within := List.forall_mem_singleton.mpr ⟨Nat.le_refl _, Nat.le_refl _⟩
  used := rfl

theorem cancels_deals {time : Nat} {id : Option String} {call : Option Call} (h : d.Cancels time id call e) :
    d.Deals [] 0 e := by
  cases h with
  | given => exact .tosses rfl rfl ((Journal.placed_cons _ _).trans (List.append_nil _))
  | oldest => exact .tosses rfl rfl (by simp [Journal.placed_cons, Entry.call?, Call.order?])
  | idle => exact .same rfl rfl rfl

/-- A mixed task goes on as one of the others, once its coin is tossed. -/
theorem begin_mixed_eq (d : Desk) (time : Nat) :
    d.begin time .mixed =
      let tossed := { d with draws := d.draws.coin.2 }
      if d.draws.coin.1 && !d.openOrders.isEmpty then tossed.cancel time none else tossed.begin time .place := rfl

theorem begin_deals (d : Desk) (time : Nat) (task : Task) :
    ∃ deals, d.Deals deals task.coins (d.begin time task).2 := by
  cases task with
  | place => exact ⟨_, d.begin_place_deals time⟩
  | cancel => exact ⟨_, cancels_deals (d.cancels time none)⟩
  | mixed =>
      have htoss : d.Deals [] 1 { d with draws := d.draws.coin.2 } := .tosses rfl rfl rfl
      rw [begin_mixed_eq]
      dsimp only
      split
      · exact ⟨_, htoss.trans (cancels_deals (cancels _ time none))⟩
      · exact ⟨_, htoss.trans (begin_place_deals _ time)⟩

theorem settle_deals (d : Desk) (call : Call) (answer : Answer) : d.Deals [] 0 (d.settle call answer).2 :=
  .same (d.settle_symbol call answer) (d.settle_draws call answer) (d.settle_calls call answer)

theorem note_deals (d : Desk) {entry : Entry} (h : entry.Aside) : d.Deals [] 0 (d.note entry) :=
  .same rfl rfl (Journal.calls_aside h)

end Desk

/-! Phases and runs. -/

namespace Phase

variable {p q : Phase} {m : Move}

theorem step_deals (h : Step p m q) : ∃ deals, p.desk.Deals deals (m.begun?.toList.length * p.task.coins) q.desk := by
  obtain ⟨time, call, rfl, hb⟩ | ⟨index, call, answer, rfl, hd⟩ := step_desk h
  · obtain ⟨deals, h⟩ := p.desk.begin_deals time p.task
    rw [hb] at h
    exact ⟨deals, (Nat.one_mul p.task.coins).symm ▸ h⟩
  · exact ⟨[], hd ▸ (Nat.zero_mul p.task.coins).symm ▸ p.desk.settle_deals call answer⟩

end Phase

/-- The coins of a run that measures so many tasks. -/
def Workload.coins (count : Nat) : Workload → Nat
  | .place | .cancel => 0
  | .both => count

/-- The coins of a run that was finished. -/
def Entry.coins : Entry → Nat
  | .finished workload count _ => workload.coins count
  | _ => 0

def Journal.coins (j : Journal) : Nat := (j.map Entry.coins).sum

@[simp] theorem Journal.coins_cons (e : Entry) (j : Journal) : coins (e :: j) = e.coins + coins j := rfl

theorem Workload.coins_eq (workload : Workload) (count : Nat) : workload.coins count = count * workload.task.coins := by
  cases workload with
  | place | cancel => exact (Nat.mul_zero count).symm
  | both => exact (Nat.mul_one count).symm

namespace Desk

variable (d : Desk)

theorem begin_coins {d e : Desk} {time : Nat} {task : Task} {call : Option Call} (h : d.begin time task = (call, e)) :
    e.journal.coins = d.journal.coins := by
  obtain ⟨_, _, -, -, rfl⟩ | ⟨_, _, _, -, -, -, rfl⟩ | ⟨-, -, -, rfl⟩ := begin_cases h <;>
    simp [Entry.coins]

theorem settle_coins (call : Call) (answer : Answer) : (d.settle call answer).2.journal.coins = d.journal.coins := by
  have hregister (id : String) : (d.register id).journal.coins = d.journal.coins := by
    obtain ⟨-, o, -, h⟩ | ⟨-, h⟩ := d.register_cases id <;> simp [h, Entry.coins]
  unfold settle
  cases answer.outcome with
  | error e => simp [Entry.coins]
  | ok r =>
      cases call with
      | cancel id => cases h : r.isOk <;> simp [judge, h]
      | place order =>
          cases h : r.isOk with
          | false => simp [judge, h]
          | true => rcases hb : orderId r.body with _ | _ | id <;> simp [judge, h, hb, hregister, Entry.coins]

end Desk

theorem Phase.step_coins {p q : Phase} {m : Phase.Move} (h : Phase.Step p m q) :
    q.desk.journal.coins = p.desk.journal.coins := by
  obtain ⟨time, call, -, hb⟩ | ⟨_, call, answer, -, hd⟩ := Phase.step_desk h
  · exact Desk.begin_coins hb
  · rw [hd, Desk.settle_coins]

theorem Phase.step_started {p q : Phase} {m : Phase.Move} (h : Phase.Step p m q) :
    q.started = p.started + m.begun?.toList.length := by
  obtain ⟨_, _, rfl, -, -, -, rfl⟩ | ⟨_, _, _, rfl, -, -, -, rfl⟩ | ⟨_, _, _, rfl, -, rfl⟩ := step_cases h <;>
    rfl

namespace Driver

/-- The coins that a driver has tossed: in the runs that it has finished, and by the tasks that it now measures. -/
def coins : Driver → Nat
  | .idle desk _ => desk.journal.coins
  | .warming _ _ p => p.desk.journal.coins
  | .measuring workload p => p.desk.journal.coins + workload.coins p.started

/-- A phase is sound, and of the tasks that its run makes; a warm-up is of placements. -/
def Tasked : Driver → Prop
  | .idle _ _ => True
  | .warming _ _ p => p.Sound ∧ p.task = .place
  | .measuring workload p => p.Sound ∧ p.task = workload.task

theorem step_tasked {d e : Driver} {m : Option Phase.Move} (h : Step d m e) (hd : d.Tasked) : e.Tasked := by
  cases h with
  | begin | warmUp | warm => exact ⟨Phase.opening_sound _ _ _ _, rfl⟩
  | warming h | measuring h => exact ⟨Phase.step_sound h hd.1, (Phase.step_task h).1.trans hd.2⟩
  | finish => trivial

/-- A step tells in its coins what it draws. -/
theorem step_deals {d e : Driver} {m : Option Phase.Move} (h : Step d m e) (hd : d.Tasked) :
    ∃ deals coins, d.desk.Deals deals coins e.desk ∧ e.coins = d.coins + coins := by
  cases h with
  | @begin workload total desk permits =>
      refine ⟨[], 0, .same rfl rfl rfl, ?_⟩
      cases workload <;> rfl
  | @warmUp workload total count desk permits =>
      exact ⟨[], 0, desk.note_deals trivial, Nat.zero_add _⟩
  | @warming workload total p q m h =>
      obtain ⟨deals, hdeals⟩ := Phase.step_deals h
      rw [hd.2] at hdeals
      exact ⟨deals, _, hdeals, Phase.step_coins h⟩
  | @warm workload total p elapsed h =>
      refine ⟨[], 0, p.desk.note_deals trivial, ?_⟩
      cases workload <;> exact Nat.zero_add _
  | @measuring workload p q m h =>
      obtain ⟨deals, hdeals⟩ := Phase.step_deals h
      refine ⟨deals, _, hdeals, ?_⟩
      rw [coins, coins, Phase.step_coins h, Phase.step_started h, workload.coins_eq, workload.coins_eq, hd.2,
        Nat.add_mul, Nat.add_assoc]
  | @finish workload p elapsed h =>
      refine ⟨[], 0, p.desk.note_deals trivial, ?_⟩
      have hcount : p.results.length = p.started := (hd.1.length_results h).trans h.1.symm
      rw [coins, coins, Desk.note_journal, Journal.coins_cons, hcount, Nat.add_comm]
      rfl

theorem history_deals {d e : Driver} {ms : List Phase.Move} (h : History d ms e) (hd : d.Tasked) :
    e.Tasked ∧ ∃ deals coins, d.desk.Deals deals coins e.desk ∧ e.coins = d.coins + coins := by
  induction h with
  | nil => exact ⟨hd, [], 0, .same rfl rfl rfl, rfl⟩
  | snoc _ hs ih =>
      obtain ⟨htasked, deals, coins, hdeals, hcoins⟩ := ih
      obtain ⟨later, tossed, hlater, htossed⟩ := step_deals hs htasked
      refine ⟨step_tasked hs htasked, _, _, hdeals.trans hlater, ?_⟩
      rw [htossed, hcoins, Nat.add_assoc]

end Driver

/-! Runs on a clock. -/

theorem Phase.run_coins {p q : Phase} {ms : List Phase.Move} (h : Phase.Run p ms q) :
    q.desk.journal.coins = p.desk.journal.coins := by
  induction h with
  | nil => rfl
  | snoc _ hs ih => rw [step_coins hs, ih]

theorem Workload.coins_measuredCount (workload : Workload) (total : Nat) (warmup : Option Warmup) :
    workload.coins (workload.measuredCount total warmup) = workload.coins total := by
  cases workload <;> rfl

namespace Session

variable {s t : Session}

theorem run_coins {workload : Workload} {total : Nat} {r : RunRecord} (hpos : 0 < s.permits)
    (h : s.run workload total = .ok (r, t)) :
    t.desk.journal.coins = s.desk.journal.coins + workload.coins total := by
  rcases hw : workload.warmupCount total with fault | _ | count
  · simp [s.run_error hw] at h
  · obtain ⟨ms, p, now, peak, elapsed, hr, he, -, hrun⟩ := s.run_direct hw hpos
    obtain ⟨rfl, rfl⟩ := Prod.mk.inj (Except.ok.inj (h.symm.trans hrun))
    have hcount : p.results.length = workload.measuredCount total none := Phase.run_length_results hr he
    rw [Desk.note_journal, Journal.coins_cons, Entry.coins, hcount, workload.coins_measuredCount, Phase.run_coins hr,
      Nat.add_comm]
    rfl
  · obtain ⟨w, now, peak, elapsed, -, -, hrun⟩ := s.run_warm hw hpos
    obtain ⟨rfl, rfl⟩ := Prod.mk.inj (Except.ok.inj (h.symm.trans hrun))
    have hcount : w.measured.results.length = workload.measuredCount total (some w.warmup) :=
      Phase.run_length_results w.measured_run w.measured_ended
    have hwarm : (w.warmUp.desk.note (.warmedUp w.warmup.created)).journal.coins = s.desk.journal.coins := by
      rw [Desk.note_journal, Journal.coins_cons, Phase.run_coins w.warmUp_run]
      exact (Nat.zero_add _).trans (Nat.zero_add _)
    rw [Desk.note_journal, Journal.coins_cons, Entry.coins, hcount, workload.coins_measuredCount,
      Phase.run_coins w.measured_run, Nat.add_comm, ← hwarm]
    rfl

theorem runAll_coins {runs : List (Workload × Nat)} (hpos : 0 < s.permits) (h : s.runAll runs = .ok t) :
    t.desk.journal.coins = s.desk.journal.coins + (runs.map fun run => run.1.coins run.2).sum := by
  induction runs generalizing s with
  | nil =>
      cases h
      rfl
  | cons run runs ih =>
      obtain ⟨r, u, hr, hrest⟩ := runAll_cons.mp h
      have hp : u.permits = s.permits := (s.run_history hpos hr).2
      rw [ih (hp ▸ hpos) hrest, run_coins hpos hr, List.map_cons, List.sum_cons, Nat.add_assoc]

end Session

/-- In every state of every history of a driver, whatever its calls are answered, the orders that it has placed are made
of two draws each, and nothing else was drawn but a coin for each task of the mixed phases; so it is where any runs of
a session have come to an end. -/
theorem placements_drawn :
    (∀ (desk : Desk) (permits : Nat) (ms : List Phase.Move) (e : Driver), Driver.History (.idle desk permits) ms e →
      ∃ deals coins, desk.Deals deals coins e.desk ∧ e.coins = desk.journal.coins + coins) ∧
    ∀ (s : Session) (runs : List (Workload × Nat)), 0 < s.permits →
      ((∀ run ∈ runs, ∃ count, run.1.warmupCount run.2 = .ok count) → ∃ t, s.runAll runs = .ok t) ∧
      ∀ t, s.runAll runs = .ok t →
        ∃ deals, s.desk.Deals deals (runs.map fun run => run.1.coins run.2).sum t.desk := by
  have hhistory (desk : Desk) (permits : Nat) (ms : List Phase.Move) (e : Driver)
      (h : Driver.History (.idle desk permits) ms e) :
      ∃ deals coins, desk.Deals deals coins e.desk ∧ e.coins = desk.journal.coins + coins :=
    (Driver.history_deals h trivial).2
  refine ⟨hhistory, fun s runs hpos => ⟨s.runAll_ok hpos, ?_⟩⟩
  intro t h
  obtain ⟨⟨ms, hm⟩, -⟩ := Session.runAll_history hpos h
  obtain ⟨deals, coins, hdeals, hcoins⟩ := hhistory s.desk s.permits ms _ hm
  obtain rfl : coins = (runs.map fun run => run.1.coins run.2).sum :=
    Nat.add_left_cancel (hcoins.symm.trans (Session.runAll_coins hpos h))
  exact ⟨deals, hdeals⟩

/-- Three cancels and two mixed tasks, for a symbol that has no tick of its own, with the greatest price for every
draw; and a placement that is still under way. -/
theorem placements_drawn_over_two_runs :
    let s : Session := {
      venue := fun number _ => ⟨number, .ok ⟨200, "\x7b\"data\":\x7b\"orderId\":7\x7d\x7d"⟩⟩
      permits := 2
      desk := { symbol := "DOGEUSDT", draws := .cyclic #[1000000000000] } }
    (∃ t, s.runAll [(.cancel, 3), (.both, 2)] = .ok t ∧
      t.desk.draws.used = 2 * t.desk.journal.placed.length + 2 ∧
      ∀ order ∈ t.desk.journal.placed, ∃ k, order.Drawn "DOGEUSDT" s.desk.draws.source k) ∧
    ∃ ms e deals, Driver.History (.idle s.desk s.permits) ms e ∧ e.inFlight.length = 1 ∧
      s.desk.Deals deals 0 e.desk := by
  intro s
  obtain ⟨hhistory, hruns⟩ := placements_drawn
  obtain ⟨hok, hdeals⟩ := hruns s [(.cancel, 3), (.both, 2)] (by decide)
  constructor
  · obtain ⟨t, ht⟩ := hok (by
      simp only [List.mem_cons, List.not_mem_nil, or_false, forall_eq_or_imp, forall_eq]
      exact ⟨⟨_, rfl⟩, ⟨_, rfl⟩⟩)
    obtain ⟨deals, h⟩ := hdeals t ht
    have hplaced : t.desk.journal.placed = deals.map Prod.snd := h.placed
    refine ⟨t, ht, ?_, ?_⟩
    · rw [h.used, hplaced, List.length_map]
      exact congrArg (· + 2) (Nat.zero_add _)
    · intro order ho
      obtain ⟨x, hx, rfl⟩ := List.mem_map.mp (hplaced ▸ ho)
      exact ⟨x.1, h.drawn x hx⟩
  · have hbegin : Driver.Step (.idle s.desk s.permits) none (.measuring .place
        (Driver.measured .place 2 none s.desk 2)) := .begin rfl
    have hstart : Phase.Step (Driver.measured .place 2 none s.desk 2) (.start 0 _) _ := .start rfl
    have h := (Driver.History.nil.silent hbegin).snoc (.measuring hstart)
    obtain ⟨deals, coins, hd, hcoins⟩ := hhistory _ _ _ _ h
    obtain rfl : coins = 0 := (hcoins.trans (Nat.zero_add coins)).symm
    exact ⟨_, _, deals, h, rfl, hd⟩

end OrderBench
