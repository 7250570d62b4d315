import OrderBench.Fifo
import Std.Data.HashSet

/-!
The ids of the orders that wait to be cancelled, oldest first and each once. A hash index of the
queue answers whether an id is open.
-/
namespace OrderBench

structure OpenOrders where
  queue : Fifo String
  index : Std.HashSet String
  mem_index : ∀ id, id ∈ index ↔ id ∈ queue.toList
  nodup : queue.toList.Nodup

namespace OpenOrders

variable (o : OpenOrders)

def empty : OpenOrders where
  queue := {}
  index := {}
  mem_index := by simp
  nodup := List.nodup_nil

def toList : List String := o.queue.toList

def size : Nat := o.queue.size

def isEmpty : Bool := o.queue.isEmpty

/-- Appends an id, unless it is open already. -/
def register? (id : String) : Option OpenOrders :=
  if h : id ∈ o.index then none
  else some {
    queue := o.queue.push id
    index := o.index.insert id
    mem_index := by
      intro other
      rw [Std.HashSet.mem_insert, o.mem_index, beq_iff_eq, Fifo.toList_push, List.mem_append,
        List.mem_singleton, or_comm, eq_comm]
    nodup := by
      rw [o.mem_index] at h
      rw [Fifo.toList_push, List.nodup_append]
      refine ⟨o.nodup, List.nodup_cons.mpr ⟨List.not_mem_nil, List.nodup_nil⟩, ?_⟩
      rintro a ha b hb rfl
      exact h (List.mem_singleton.mp hb ▸ ha) }

def take? : Option (String × OpenOrders) :=
  match h : o.queue.pop? with
  | none => none
  | some (id, queue) =>
    have hl : o.queue.toList = id :: queue.toList := Fifo.toList_of_pop? h
    have hn : (id :: queue.toList).Nodup := hl ▸ o.nodup
    some (id, {
      queue
      index := o.index.erase id
      mem_index := by
        intro other
        have hm := o.mem_index other
        rw [hl, List.mem_cons] at hm
        have hi := (List.nodup_cons.mp hn).1
        rw [Std.HashSet.mem_erase, hm, beq_eq_false_iff_ne]
        constructor
        · rintro ⟨hne, rfl | hq⟩
          · exact absurd rfl hne
          · exact hq
        · intro hq
          exact ⟨fun he => hi (he ▸ hq), .inr hq⟩
      nodup := (List.nodup_cons.mp hn).2 })

theorem register?_eq_none_iff {id : String} : o.register? id = none ↔ id ∈ o.toList := by
  by_cases h : id ∈ o.index <;> simp [register?, h, toList, ← o.mem_index]

theorem toList_of_register? {o p : OpenOrders} {id : String} (h : o.register? id = some p) :
    p.toList = o.toList ++ [id] := by
  by_cases hi : id ∈ o.index
  · simp [register?, hi] at h
  · simp only [register?, hi, dite_false, Option.some.injEq] at h
    rw [← h]
    exact o.queue.toList_push id

theorem toList_of_take? {o p : OpenOrders} {id : String} (h : o.take? = some (id, p)) :
    o.toList = id :: p.toList := by
  unfold take? at h
  split at h
  · cases h
  · next hq =>
    cases h
    exact Fifo.toList_of_pop? hq

theorem take?_eq_none_iff : o.take? = none ↔ o.toList = [] := by
  unfold take?
  split
  · next hq => simpa [toList] using (o.queue.pop?_eq_none_iff).mp hq
  · next hq => simp [toList, Fifo.toList_of_pop? hq]

theorem size_eq_length : o.size = o.toList.length := o.queue.size_eq_length

theorem isEmpty_iff : o.isEmpty = true ↔ o.toList = [] := o.queue.isEmpty_iff

/-- Opens ids one after the other, those that are open already left out. -/
def registerAll (ids : List String) : OpenOrders := ids.foldl (fun o id => (o.register? id).getD o) o

end OpenOrders

end OrderBench
