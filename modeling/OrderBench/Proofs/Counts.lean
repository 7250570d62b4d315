import OrderBench.Summary.Basic
import Mathlib.Algebra.Order.Ring.Nat

/-!
Counts of 64 bits, with each of their steps checked. While the attempts themselves can be counted, no count
of a summary overflows on its way, and no difference of them falls below zero.
-/
namespace OrderBench

def increment? (n : Nat) : Option Nat := if n < maxCount then some (n + 1) else none

def minus? (a b : Nat) : Option Nat := if b ≤ a then some (a - b) else none

def count? {α : Type} (p : α → Bool) (l : List α) : Option Nat :=
  l.foldlM (fun n a => if p a then increment? n else some n) 0

theorem foldlM_count {α : Type} (p : α → Bool) (l : List α) {n : Nat} (h : n + l.countP p ≤ maxCount) :
    l.foldlM (fun n a => if p a then increment? n else some n) n = some (n + l.countP p) := by
  induction l generalizing n with
  | nil => rfl
  | cons a l ih =>
      rw [List.countP_cons] at h ⊢
      rw [List.foldlM_cons]
      by_cases ha : p a
      · simp only [ha, if_true] at h ⊢
        have hn : increment? n = some (n + 1) := if_pos (by omega)
        rw [hn, Option.bind_eq_bind, Option.bind_some, ih (by omega)]
        congr 1
        omega
      · simp only [ha, if_false, Bool.false_eq_true, Nat.add_zero] at h ⊢
        rw [Option.bind_eq_bind, Option.bind_some, ih h]

theorem count?_eq {α : Type} (p : α → Bool) {l : List α} (h : l.length ≤ maxCount) :
    count? p l = some (l.countP p) := by
  have hp : 0 + l.countP p ≤ maxCount := by
    have := l.countP_le_length (p := p)
    omega
  rw [count?, foldlM_count p l hp, Nat.zero_add]

namespace Summary

def countMessage? (message : String) : List (String × Nat) → Option (List (String × Nat))
  | [] => some [(message, 1)]
  | (other, n) :: table =>
    if other = message then (increment? n).map fun n => (other, n) :: table
    else (countMessage? message table).map ((other, n) :: ·)

def rankErrors? (attempts : List Attempt) : Option (List (String × Nat)) := do
  let table ← (attempts.filterMap Attempt.failure?).foldlM (fun table m => countMessage? m table) []
  pure (table.mergeSort fun a b => b.2 ≤ a.2)

def countKind? (attempts : List Attempt) (kind : RequestKind) : Option (Option KindCount) := do
  let ofKind := attempts.filter (·.kind = kind)
  let total ← count? (fun _ => true) ofKind
  let success ← count? Attempt.succeeded ofKind
  pure (if total = 0 then none else some ⟨kind, total, success⟩)

/-- A summary whose counts are made again with each step checked. -/
def ofAttempts? (attempts : List Attempt) (elapsed : Duration) (warmup : Option Warmup) : Option Summary := do
  let total ← count? (fun _ => true) attempts
  let success ← count? Attempt.succeeded attempts
  let fail ← minus? total success
  let errors ← rankErrors? attempts
  let byKind ← [RequestKind.place, .cancel].mapM (countKind? attempts)
  pure { ofAttempts attempts elapsed warmup with total, success, fail, errors, byKind := byKind.filterMap id }

def counted (table : List (String × Nat)) : Nat := (table.map Prod.snd).sum

@[simp] theorem counted_nil : counted [] = 0 := rfl

@[simp] theorem counted_cons (m : String) (n : Nat) (table : List (String × Nat)) :
    counted ((m, n) :: table) = n + counted table := rfl

theorem counted_countMessage (message : String) (table : List (String × Nat)) :
    counted (countMessage message table) = counted table + 1 := by
  induction table with
  | nil => rfl
  | cons entry table ih =>
      obtain ⟨other, n⟩ := entry
      by_cases h : other = message
      · simp [countMessage, h, Nat.add_right_comm]
      · simp [countMessage, h, ih, Nat.add_assoc]

/-- No count of a table exceeds the messages that it counts, so while they fit one more can be counted. -/
theorem countMessage?_eq (message : String) {table : List (String × Nat)} (h : counted table < maxCount) :
    countMessage? message table = some (countMessage message table) := by
  induction table with
  | nil => rfl
  | cons entry table ih =>
      obtain ⟨other, n⟩ := entry
      rw [counted_cons] at h
      by_cases ho : other = message
      · have hn : increment? n = some (n + 1) := if_pos (by omega)
        simp [countMessage?, countMessage, ho, hn]
      · simp [countMessage?, countMessage, ho, ih (by omega)]

theorem foldlM_countMessage (messages : List String) {table : List (String × Nat)}
    (h : counted table + messages.length ≤ maxCount) :
    messages.foldlM (fun table m => countMessage? m table) table =
      some (messages.foldl (fun table m => countMessage m table) table) := by
  induction messages generalizing table with
  | nil => rfl
  | cons message messages ih =>
      rw [List.length_cons] at h
      rw [List.foldlM_cons, countMessage?_eq message (by omega), Option.bind_eq_bind, Option.bind_some, List.foldl_cons]
      apply ih
      rw [counted_countMessage]
      omega

section
variable {attempts : List Attempt} (h : attempts.length ≤ maxCount)
include h

theorem rankErrors?_eq : rankErrors? attempts = some (rankErrors attempts) := by
  have hm : counted [] + (attempts.filterMap Attempt.failure?).length ≤ maxCount := by
    have := List.length_filterMap_le Attempt.failure? attempts
    rw [counted_nil]
    omega
  rw [rankErrors?, foldlM_countMessage _ hm, rankErrors, MessageCounts.toList_ofMessages]
  rfl

theorem countKind?_eq (kind : RequestKind) :
    countKind? attempts kind = some (let ofKind := attempts.filter (·.kind = kind)
      if ofKind.isEmpty then none else some ⟨kind, ofKind.length, ofKind.countP Attempt.succeeded⟩) := by
  have hk : (attempts.filter (·.kind = kind)).length ≤ maxCount :=
    Nat.le_trans (List.length_filter_le _ attempts) h
  simp only [countKind?, count?_eq _ hk, Option.bind_eq_bind, Option.bind_some, List.countP_true, Option.pure_def]
  cases attempts.filter (·.kind = kind) <;> rfl

/-- A summary of as many attempts as can be counted is made without an overflow. -/
theorem ofAttempts?_eq (elapsed : Duration) (warmup : Option Warmup) :
    ofAttempts? attempts elapsed warmup = some (ofAttempts attempts elapsed warmup) := by
  have hs : attempts.countP Attempt.succeeded = (attempts.filter Attempt.succeeded).length :=
    List.countP_eq_length_filter
  have hfail : minus? attempts.length (attempts.filter Attempt.succeeded).length =
      some (attempts.length - (attempts.filter Attempt.succeeded).length) := if_pos (List.length_filter_le _ _)
  simp only [ofAttempts?, count?_eq _ h, List.countP_true, hs, hfail, rankErrors?_eq h, List.mapM_cons, List.mapM_nil,
    countKind?_eq h, Option.bind_eq_bind, Option.bind_some, Option.pure_def]
  rfl

end

end Summary

end OrderBench
