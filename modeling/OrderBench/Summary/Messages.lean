import Std.Data.HashMap

/-!
Messages and how often each of them occurred, in the order in which they first did. A hash index of the entries
answers where a message stands.
-/
namespace OrderBench

structure MessageCounts where
  entries : Array (String × Nat)
  index : Std.HashMap String Nat
  getElem?_index : ∀ (m : String) (i : Nat), index[m]? = some i ↔ entries[i]?.map Prod.fst = some m

namespace MessageCounts

variable (t : MessageCounts)

def empty : MessageCounts where
  entries := #[]
  index := {}
  getElem?_index := by simp

def toList : List (String × Nat) := t.entries.toList

/-- One more of a message, after the others if it is new. -/
def count (message : String) : MessageCounts :=
  match h : t.index[message]? with
  | some i => { t with
      entries := t.entries.modify i fun (m, n) => (m, n + 1)
      getElem?_index := by
        intro m j
        rw [t.getElem?_index, Array.getElem?_modify]
        split
        · cases t.entries[j]? <;> rfl
        · rfl }
  | none => {
      entries := t.entries.push (message, 1)
      index := t.index.insert message t.entries.size
      getElem?_index := by
        intro m i
        rw [Std.HashMap.getElem?_insert, Array.getElem?_push]
        by_cases hm : message = m
        · subst hm
          -- a message without an index has no entry either
          have hi := t.getElem?_index message i
          by_cases hs : i = t.entries.size <;> simp_all [eq_comm]
        · by_cases hs : i = t.entries.size <;> simp [hm, hs, t.getElem?_index] }

def ofMessages (messages : List String) : MessageCounts := messages.foldl count empty

@[simp] theorem toList_empty : empty.toList = [] := rfl

theorem index_eq_some_iff {message : String} {i : Nat} :
    t.index[message]? = some i ↔ ∃ n, t.toList[i]? = some (message, n) := by
  rw [t.getElem?_index, toList, Array.getElem?_toList]
  cases t.entries[i]? <;> simp [Prod.ext_iff]

end MessageCounts

namespace Summary

/-- Counts a message, after the others if it is new. -/
def countMessage (message : String) : List (String × Nat) → List (String × Nat)
  | [] => [(message, 1)]
  | (other, n) :: table =>
    if other = message then (other, n + 1) :: table else (other, n) :: countMessage message table

theorem countMessage_of_new {message : String} {table : List (String × Nat)}
    (h : ∀ (i n : Nat), table[i]? ≠ some (message, n)) :
    countMessage message table = table ++ [(message, 1)] := by
  induction table with
  | nil => rfl
  | cons entry table ih =>
      obtain ⟨other, n⟩ := entry
      have hne : other ≠ message := fun he => h 0 n (he ▸ rfl)
      rw [countMessage, if_neg hne, ih fun i => h (i + 1), List.cons_append]

/-- The entry that counts a message is the first one for it. -/
theorem countMessage_of_known {message : String} {table : List (String × Nat)} {i n : Nat}
    (hi : table[i]? = some (message, n)) (hfirst : ∀ j k : Nat, table[j]? = some (message, k) → i ≤ j) :
    countMessage message table = table.modify i fun (m, n) => (m, n + 1) := by
  induction table generalizing i with
  | nil => cases hi
  | cons entry table ih =>
      obtain ⟨other, k⟩ := entry
      cases i with
      | zero =>
          cases hi
          rw [countMessage, if_pos rfl]
          rfl
      | succ i =>
          have hne : other ≠ message := by
            rintro rfl
            exact absurd (hfirst 0 k rfl) (Nat.not_succ_le_zero i)
          rw [countMessage, if_neg hne, ih hi fun j k hj => Nat.le_of_succ_le_succ (hfirst (j + 1) k hj)]
          rfl

end Summary

namespace MessageCounts

/-- The index finds the entry that a walk along the list would find. -/
theorem toList_count (t : MessageCounts) (message : String) :
    (t.count message).toList = Summary.countMessage message t.toList := by
  unfold count
  split
  · next i h =>
    obtain ⟨n, hn⟩ := t.index_eq_some_iff.mp h
    rw [Summary.countMessage_of_known hn]
    · exact Array.toList_modify ..
    · intro j k hj
      have hj := t.index_eq_some_iff.mpr ⟨k, hj⟩
      rw [h, Option.some_inj] at hj
      exact Nat.le_of_eq hj
  · next h =>
    rw [Summary.countMessage_of_new]
    · exact Array.toList_push ..
    · intro i n hi
      have hi := t.index_eq_some_iff.mpr ⟨n, hi⟩
      rw [h] at hi
      cases hi

theorem toList_ofMessages (messages : List String) :
    (ofMessages messages).toList = messages.foldl (fun table m => Summary.countMessage m table) [] :=
  (List.foldl_hom toList fun t m => (t.toList_count m).symm).symm

end MessageCounts

end OrderBench
