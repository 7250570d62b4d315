import Mathlib.Data.List.Induction
import Mathlib.Data.List.Perm.Basic
import Mathlib.Data.List.Nodup

/-!
Lists without their repetitions, where of equal elements the first is kept, and sorted lists, where elements that
are ranked alike keep their order.
-/
namespace OrderBench

section
variable {α : Type} [DecidableEq α]

theorem eraseDups_of_nodup {l : List α} (h : l.Nodup) : l.eraseDups = l := by
  induction l with
  | nil => rfl
  | cons a l ih =>
      obtain ⟨ha, hl⟩ := List.nodup_cons.mp h
      have hne : l.filter (fun b => !b == a) = l := by
        rw [List.filter_eq_self]
        intro b hb
        have : b ≠ a := fun he => ha (he ▸ hb)
        simpa using this
      rw [List.eraseDups_cons, hne, ih hl]

theorem eraseDups_concat (l : List α) (a : α) :
    (l ++ [a]).eraseDups = if a ∈ l then l.eraseDups else l.eraseDups ++ [a] := by
  rw [List.eraseDups_append]
  by_cases h : a ∈ l <;> simp [List.removeAll, List.eraseDups_cons, h]

theorem nodup_eraseDups (l : List α) : l.eraseDups.Nodup := by
  induction l using List.reverseRecOn with
  | nil => exact List.nodup_nil
  | append_singleton l a ih =>
      rw [eraseDups_concat]
      split
      · exact ih
      · next ha =>
        rw [← List.mem_eraseDups] at ha
        rw [← List.concat_eq_append]
        exact ih.concat ha

theorem eraseDups_perm {l l' : List α} (h : l.Perm l') : l.eraseDups.Perm l'.eraseDups := by
  rw [List.perm_ext_iff_of_nodup (nodup_eraseDups l) (nodup_eraseDups l')]
  intro a
  rw [List.mem_eraseDups, List.mem_eraseDups, h.mem_iff]

variable {β : Type} {f : β → Option α} {l : List β}

/-- Where a list first brings an element. -/
def firstIndex (f : β → Option α) (l : List β) (a : α) : Nat := l.findIdx (f · = some a)

theorem firstIndex_lt_length {a : α} : firstIndex f l a < l.length ↔ a ∈ l.filterMap f := by
  simp [firstIndex, List.findIdx_lt_length, List.mem_filterMap]

theorem firstIndex_concat_of_mem {a : α} (h : a ∈ l.filterMap f) (x : β) :
    firstIndex f (l ++ [x]) a = firstIndex f l a := by
  rw [firstIndex, List.findIdx_append]
  exact if_pos (firstIndex_lt_length.mpr h)

theorem length_le_firstIndex_concat {a : α} (h : a ∉ l.filterMap f) (x : β) :
    l.length ≤ firstIndex f (l ++ [x]) a := by
  rw [firstIndex, List.findIdx_append]
  split
  · next hlt => exact absurd (firstIndex_lt_length.mp hlt) h
  · exact Nat.le_add_left ..

/-- What a list brings stands, without repetitions, in the order in which it is first brought. -/
theorem eraseDups_filterMap_ordered (f : β → Option α) (l : List β) :
    (l.filterMap f).eraseDups.Pairwise fun a b => firstIndex f l a < firstIndex f l b := by
  induction l using List.reverseRecOn with
  | nil => exact .nil
  | append_singleton l x ih =>
      have hold : (l.filterMap f).eraseDups.Pairwise fun a b => firstIndex f (l ++ [x]) a < firstIndex f (l ++ [x]) b := by
        apply ih.imp_of_mem
        intro a b ha hb hlt
        rwa [firstIndex_concat_of_mem (List.mem_eraseDups.mp ha), firstIndex_concat_of_mem (List.mem_eraseDups.mp hb)]
      rw [List.filterMap_append]
      cases hf : f x with
      | none => simpa [hf] using hold
      | some b =>
          rw [List.filterMap_cons_some hf, List.filterMap_nil, eraseDups_concat]
          split
          · exact hold
          · next hb =>
            apply List.pairwise_append.mpr
            refine ⟨hold, List.pairwise_singleton .., ?_⟩
            intro a ha c hc
            rw [List.mem_singleton.mp hc, firstIndex_concat_of_mem (List.mem_eraseDups.mp ha)]
            have hlt := firstIndex_lt_length.mpr (List.mem_eraseDups.mp ha)
            exact Nat.lt_of_lt_of_le hlt (length_le_firstIndex_concat hb x)

end

/-- Positions in a list are ordered as what stands there, if the order of the list cannot be reversed. -/
theorem lt_iff_of_pairwise {α : Type} {s : α → α → Prop} (asymm : ∀ a b, s a b → ¬s b a) {l : List α}
    (h : l.Pairwise s) {i j : Nat} {a b : α} (hi : l[i]? = some a) (hj : l[j]? = some b) : i < j ↔ s a b := by
  have hlt {i j : Nat} {a b : α} (hi : l[i]? = some a) (hj : l[j]? = some b) (hij : i < j) : s a b := by
    obtain ⟨hli, rfl⟩ := List.getElem?_eq_some_iff.mp hi
    obtain ⟨hlj, rfl⟩ := List.getElem?_eq_some_iff.mp hj
    exact List.pairwise_iff_getElem.mp h i j hli hlj hij
  constructor
  · exact hlt hi hj
  · intro hs
    rcases Nat.lt_trichotomy i j with hij | rfl | hji
    · exact hij
    · rw [hi, Option.some_inj] at hj
      subst hj
      exact absurd hs (asymm a a hs)
    · exact absurd hs (asymm b a (hlt hj hi hji))

section
variable {α : Type} {r s : α → α → Prop} [DecidableRel r]

theorem decide_trans (trans : ∀ a b c, r a b → r b c → r a c) (a b c : α) (hab : decide (r a b) = true)
    (hbc : decide (r b c) = true) : decide (r a c) = true :=
  decide_eq_true (trans a b c (of_decide_eq_true hab) (of_decide_eq_true hbc))

theorem decide_total (total : ∀ a b, r a b ∨ r b a) (a b : α) : (decide (r a b) || decide (r b a)) = true := by
  simpa using total a b

variable (trans : ∀ a b c, r a b → r b c → r a c) (total : ∀ a b, r a b ∨ r b a)
include trans total

theorem pairwise_mergeSort_of_total (l : List α) : (l.mergeSort fun a b => r a b).Pairwise r :=
  (List.pairwise_mergeSort (decide_trans trans) (decide_total total) l).imp of_decide_eq_true

/-- Sorting keeps an order of the list among elements that are ranked alike. -/
theorem pairwise_mergeSort_of_pairwise {l : List α} (h : l.Pairwise s) :
    (l.mergeSort fun a b => r a b).Pairwise fun a b => r a b ∧ (r b a → s a b) := by
  induction l with
  | nil => simp
  | cons a l ih =>
      obtain ⟨before, after, hcons, hl, hbefore⟩ := List.mergeSort_cons (decide_trans trans) (decide_total total) a l
      have hsorted := pairwise_mergeSort_of_total trans total (a :: l)
      obtain ⟨ha, hrest⟩ := List.pairwise_cons.mp h
      have hmem {b : α} (hb : b ∈ before ++ after) : b ∈ l := List.mem_mergeSort.mp (hl ▸ hb)
      have ih := ih hrest
      rw [hl] at ih
      rw [hcons] at hsorted ⊢
      obtain ⟨hb, hba, hcross⟩ := List.pairwise_append.mp ih
      refine List.pairwise_append.mpr ⟨hb, List.pairwise_cons.mpr ⟨?_, hba⟩, ?_⟩
      · intro b hb
        have hr := (List.pairwise_cons.mp (List.pairwise_append.mp hsorted).2.1).1 b hb
        exact ⟨hr, fun _ => ha b (hmem (List.mem_append_right _ hb))⟩
      · intro b hb c hc
        obtain rfl | hc := List.mem_cons.mp hc
        · -- what stands before is ranked strictly before
          have hnot : ¬r c b := by simpa using hbefore b hb
          exact ⟨(total c b).resolve_left hnot, fun hr => absurd hr hnot⟩
        · exact hcross b hb c hc

end

/-! Pairs of a key and a value. -/

section
variable {α β : Type} [BEq α] [LawfulBEq α] {l m : List (α × β)} {j k : α} {b : β}

theorem lookup_cons_of_ne (h : j ≠ k) : ((k, b) :: l).lookup j = l.lookup j := by
  rw [List.lookup_cons, beq_false_of_ne h]

theorem lookup_eq_none_iff : l.lookup k = none ↔ k ∉ l.map Prod.fst := by
  rw [List.lookup_eq_none_iff]
  constructor
  · intro h hk
    obtain ⟨p, hp, rfl⟩ := List.mem_map.mp hk
    simpa using h p hp
  · intro h p hp
    have hne : k ≠ p.1 := fun he => h (he ▸ List.mem_map_of_mem (f := Prod.fst) hp)
    simpa using hne

theorem lookup_eq_some_iff (hn : (l.map Prod.fst).Nodup) : l.lookup k = some b ↔ (k, b) ∈ l := by
  constructor
  · intro h
    obtain ⟨l₁, l₂, rfl, -⟩ := List.lookup_eq_some_iff.mp h
    exact List.mem_append_right _ (List.mem_cons_self ..)
  · intro h
    obtain ⟨l₁, l₂, rfl⟩ := List.append_of_mem h
    rw [List.map_append, List.map_cons, List.nodup_middle, List.nodup_cons, List.mem_append, not_or] at hn
    rw [List.lookup_append, lookup_eq_none_iff.mpr hn.1.1, Option.none_or, List.lookup_cons_self]

theorem lookup_perm (hn : (l.map Prod.fst).Nodup) (h : l.Perm m) (k : α) : l.lookup k = m.lookup k := by
  apply Option.ext
  intro b
  rw [lookup_eq_some_iff hn, lookup_eq_some_iff ((h.map Prod.fst).nodup_iff.mp hn), h.mem_iff]

theorem lookup_filterMap [DecidableEq α] (keys : List α) (f : α → Option β) (k : α) :
    (keys.filterMap fun j => (f j).map (j, ·)).lookup k = if k ∈ keys then f k else none := by
  induction keys with
  | nil => rfl
  | cons j keys ih =>
      by_cases hk : k = j
      · subst hk
        cases hf : f k with
        | none => simp [hf, ih]
        | some b => simp [hf]
      · rw [List.filterMap_cons]
        cases f j with
        | none => simp [hk, ih]
        | some b =>
            dsimp only [Option.map_some]
            rw [lookup_cons_of_ne hk, ih]
            simp [hk]

end

end OrderBench
