import OrderBench.Json.Spelling
import Mathlib.Data.List.Perm.Basic
import Mathlib.Data.String.Basic

/-!
Values that are alike are sorted into one and the same value, and so have one compact text. Sorting keeps of
each name the member that counts.
-/
namespace OrderBench.Json

theorem get?_cons (name key : String) (v : Json) (ms : List (String × Json)) :
    get? name ((key, v) :: ms) = (get? name ms).or (if key = name then some v else none) := by
  rw [get?, get?, List.reverse_cons, List.find?_append]
  cases ms.reverse.find? (·.1 = name) with
  | some m => rfl
  | none => by_cases h : key = name <;> simp [h]

/-! Placing members. -/

/-- Each name once, in order. -/
def Ordered (ms : List (String × Json)) : Prop := ms.Pairwise fun a b => a.1 < b.1

theorem mem_insertMember {name : String} {v : Json} {ms : List (String × Json)} {m : String × Json}
    (h : m ∈ insertMember name v ms) : m = (name, v) ∨ m ∈ ms := by
  fun_induction insertMember name v ms <;> grind

theorem ordered_insertMember (name : String) (v : Json) {ms : List (String × Json)} (h : Ordered ms) :
    Ordered (insertMember name v ms) := by
  induction ms with
  | nil => exact List.pairwise_singleton ..
  | cons m ms ih =>
      obtain ⟨hm, hms⟩ := List.pairwise_cons.mp h
      rw [insertMember]
      split
      · next hlt =>
        refine List.pairwise_cons.mpr ⟨?_, h⟩
        intro o ho
        obtain rfl | ho := List.mem_cons.mp ho
        · exact hlt
        · exact lt_trans hlt (hm o ho)
      · next hlt =>
        split
        · next heq => exact List.pairwise_cons.mpr ⟨heq ▸ hm, hms⟩
        · next hne =>
          refine List.pairwise_cons.mpr ⟨?_, ih hms⟩
          intro o ho
          obtain rfl | ho := mem_insertMember ho
          · exact lt_of_le_of_ne (not_lt.mp hlt) (Ne.symm hne)
          · exact hm o ho

theorem mem_insertMember_iff {name : String} {v : Json} {ms : List (String × Json)} (h : Ordered ms)
    (m : String × Json) : m ∈ insertMember name v ms ↔ m = (name, v) ∨ m.1 ≠ name ∧ m ∈ ms := by
  induction ms with
  | nil => simp [insertMember]
  | cons o ms ih =>
      obtain ⟨ho, hms⟩ := List.pairwise_cons.mp h
      have hafter : m ∈ ms → o.1 < m.1 := ho m
      rw [insertMember]
      split
      · next hlt => grind
      · next hlt =>
        split
        · next heq => grind
        · next hne =>
          rw [List.mem_cons, ih hms, List.mem_cons]
          grind

theorem ordered_sortedMembers {placed : List (String × Json)} (h : Ordered placed) (ms : List (String × Json)) :
    Ordered (sortedMembers placed ms) := by
  induction ms generalizing placed with
  | nil => simpa [sortedMembers] using h
  | cons m ms ih =>
      rw [sortedMembers]
      exact ih (ordered_insertMember _ _ h)

/-- The members of a sorted object are those that count, sorted. -/
theorem mem_sortedMembers {placed : List (String × Json)} (h : Ordered placed) (ms : List (String × Json))
    (name : String) (v : Json) :
    (name, v) ∈ sortedMembers placed ms ↔
      (get? name ms).map sorted = some v ∨ get? name ms = none ∧ (name, v) ∈ placed := by
  induction ms generalizing placed with
  | nil => simp [sortedMembers, get?]
  | cons m ms ih =>
      obtain ⟨key, w⟩ := m
      rw [sortedMembers, ih (ordered_insertMember _ _ h), mem_insertMember_iff h, get?_cons]
      cases get? name ms with
      | some u => simp
      | none =>
          by_cases hk : key = name
          · subst hk
            simp [eq_comm]
          · simp [hk, Ne.symm hk]

theorem ordered_ext {ms ns : List (String × Json)} (hm : Ordered ms) (hn : Ordered ns)
    (h : ∀ m, m ∈ ms ↔ m ∈ ns) : ms = ns := by
  have hnodup {ms : List (String × Json)} (hm : Ordered ms) : ms.Nodup := by
    refine hm.imp ?_
    rintro a b hlt rfl
    exact lt_irrefl _ hlt
  refine List.Perm.eq_of_pairwise ?_ hm hn ((List.perm_ext_iff_of_nodup (hnodup hm) (hnodup hn)).mpr h)
  intro a b _ _ hab hba
  exact absurd (lt_trans hab hba) (lt_irrefl _)

/-! Values. -/

theorem sortedItems_eq_map (vs : List Json) : sortedItems vs = vs.map sorted := by
  induction vs with
  | nil => rfl
  | cons v vs ih => rw [sortedItems, ih, List.map_cons]

theorem Alike.member {ms ns : List (String × Json)} (h : Alike (.object ms) (.object ns)) (name : String) :
    AlikeAt name ms ns := by
  cases h with
  | object hn h =>
      have hsome := hn name
      cases hm : get? name ms with
      | none =>
          rw [hm, Option.isSome_none, eq_comm, Option.isSome_eq_false_iff, Option.isNone_iff_eq_none] at hsome
          exact .inl ⟨hm, hsome⟩
      | some v =>
          rw [hm, Option.isSome_some, eq_comm, Option.isSome_iff_exists] at hsome
          obtain ⟨w, hw⟩ := hsome
          exact .inr ⟨v, w, hm, hw, h name v w hm hw⟩

theorem Alike.sorted_eq {v w : Json} (h : Alike v w) : v.sorted = w.sorted := by
  induction h with
  | null => rfl
  | boolean b => rfl
  | number n => rfl
  | string s => rfl
  | @array vs ws hl _ ih =>
      rw [sorted, sorted, sortedItems_eq_map, sortedItems_eq_map]
      congr 1
      refine List.ext_getElem (by simpa using hl) ?_
      intro i hv hw
      rw [List.length_map] at hv hw
      simpa using ih i _ _ (List.getElem?_eq_getElem hv) (List.getElem?_eq_getElem hw)
  | @object ms ns hn h ih =>
      have hget (name : String) : (get? name ms).map sorted = (get? name ns).map sorted := by
        obtain ⟨hm, hw⟩ | ⟨v, w, hm, hw, -⟩ := (Alike.object hn h).member name
        · rw [hm, hw]
        · rw [hm, hw, Option.map_some, Option.map_some, ih name v w hm hw]
      have hplaced : Ordered [] := List.Pairwise.nil
      rw [sorted, sorted]
      congr 1
      refine ordered_ext (ordered_sortedMembers hplaced ms) (ordered_sortedMembers hplaced ns) ?_
      rintro ⟨name, v⟩
      simp [mem_sortedMembers hplaced, hget]

theorem Alike.compact_eq {v w : Json} (h : Alike v w) : v.compact = w.compact := by
  rw [compact, compact, h.sorted_eq]

end OrderBench.Json
