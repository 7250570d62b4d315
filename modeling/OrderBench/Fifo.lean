/-!
First-in first-out queues as two lists, with the list of their elements as the view.
-/
namespace OrderBench

structure Fifo (α : Type) where
  front : List α := []
  back : List α := []

namespace Fifo

variable {α : Type} (q : Fifo α)

/-- The elements, oldest first. -/
def toList : List α := q.front ++ q.back.reverse

def push (a : α) : Fifo α := { q with back := a :: q.back }

def pop? : Option (α × Fifo α) :=
  match q.front with
  | a :: front => some (a, { q with front })
  | [] => match q.back.reverse with
    | a :: front => some (a, { front })
    | [] => none

def size : Nat := q.front.length + q.back.length

def isEmpty : Bool := q.front.isEmpty && q.back.isEmpty

@[simp] theorem toList_empty : toList ({} : Fifo α) = [] := rfl

@[simp] theorem toList_push (a : α) : (q.push a).toList = q.toList ++ [a] := by
  simp [toList, push]

theorem toList_of_pop? {q p : Fifo α} {a : α} (h : q.pop? = some (a, p)) : q.toList = a :: p.toList := by
  obtain ⟨front, back⟩ := q
  cases front with
  | cons b front =>
    obtain ⟨rfl, rfl⟩ : b = a ∧ (⟨front, back⟩ : Fifo α) = p := by simpa [pop?] using h
    rfl
  | nil =>
    cases hb : back.reverse with
    | nil => simp [pop?, hb] at h
    | cons b front =>
      obtain ⟨rfl, rfl⟩ : b = a ∧ ({ front } : Fifo α) = p := by simpa [pop?, hb] using h
      simp [toList, hb]

theorem pop?_eq_none_iff : q.pop? = none ↔ q.toList = [] := by
  obtain ⟨front, back⟩ := q
  cases front with
  | cons => simp [pop?, toList]
  | nil => cases hb : back.reverse <;> simp [pop?, toList, hb]

theorem size_eq_length : q.size = q.toList.length := by
  simp [size, toList]

theorem isEmpty_iff : q.isEmpty = true ↔ q.toList = [] := by
  simp [isEmpty, toList]

end Fifo

end OrderBench
