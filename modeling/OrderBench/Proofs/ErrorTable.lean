import OrderBench.Proofs.Counts
import OrderBench.Proofs.Lists

/-!
The table of the failures: each message once, with its count, in the order in which the messages first occur
until they are ranked.
-/
namespace OrderBench

/-- The messages under which the failures are counted, in the order of the attempts. -/
def failures (attempts : List Attempt) : List String := attempts.filterMap Attempt.failure?

theorem Attempt.failure?_eq_none {a : Attempt} : a.failure? = none ↔ a.succeeded = true := by
  cases h : a.verdict <;> simp [failure?, succeeded, h]

theorem failures_eq_nil {attempts : List Attempt} :
    failures attempts = [] ↔ ∀ a ∈ attempts, a.succeeded = true := by
  simp only [failures, List.filterMap_eq_nil_iff, Attempt.failure?_eq_none]

theorem length_failures (attempts : List Attempt) :
    (attempts.filter Attempt.succeeded).length + (failures attempts).length = attempts.length := by
  induction attempts with
  | nil => rfl
  | cons a attempts ih =>
      rw [failures] at ih ⊢
      cases h : a.verdict <;> simp [Attempt.failure?, Attempt.succeeded, h] <;> omega

namespace Summary

/-- Each message once, where it first occurs, with its count. -/
def messageTable (messages : List String) : List (String × Nat) :=
  messages.eraseDups.map fun m => (m, messages.count m)

/-- One more of a message that is listed changes its count alone; any other message becomes the last. -/
theorem countMessage_map (message : String) (count : String → Nat) {messages : List String} (h : messages.Nodup) :
    countMessage message (messages.map fun m => (m, count m)) =
      if message ∈ messages then messages.map fun m => (m, if m = message then count m + 1 else count m)
      else messages.map (fun m => (m, count m)) ++ [(message, 1)] := by
  induction messages with
  | nil => rfl
  | cons first messages ih =>
      obtain ⟨hfirst, hn⟩ := List.nodup_cons.mp h
      by_cases he : first = message
      · subst he
        have hrest : messages.map (fun m => (m, if m = first then count m + 1 else count m)) =
            messages.map fun m => (m, count m) := by
          refine List.map_congr_left fun m hm => ?_
          rw [if_neg fun hm' : m = first => hfirst (hm' ▸ hm)]
        simp [countMessage, hrest]
      · rw [List.map_cons, countMessage, if_neg he, ih hn]
        by_cases hm : message ∈ messages <;> simp [hm, he, Ne.symm he]

theorem count_concat (messages : List String) (m other : String) :
    (messages ++ [m]).count other = if other = m then messages.count other + 1 else messages.count other := by
  by_cases h : other = m
  · subst h
    simp
  · simp [h, Ne.symm h]

theorem foldl_countMessage (messages : List String) :
    messages.foldl (fun table m => countMessage m table) [] = messageTable messages := by
  induction messages using List.reverseRecOn with
  | nil => rfl
  | append_singleton messages m ih =>
      rw [List.foldl_concat, ih, messageTable, countMessage_map m _ (nodup_eraseDups messages), messageTable,
        eraseDups_concat]
      simp only [List.mem_eraseDups, count_concat]
      by_cases hm : m ∈ messages
      · rw [if_pos hm, if_pos hm]
      · have hother : messages.eraseDups.map (fun other =>
            (other, if other = m then messages.count other + 1 else messages.count other)) =
            messages.eraseDups.map fun other => (other, messages.count other) := by
          refine List.map_congr_left fun other ho => ?_
          rw [if_neg fun he : other = m => hm (he ▸ List.mem_eraseDups.mp ho)]
        rw [if_neg hm, if_neg hm, List.map_append, hother, List.map_singleton, if_pos rfl,
          List.count_eq_zero_of_not_mem hm]

theorem rankErrors_eq (attempts : List Attempt) :
    rankErrors attempts = (messageTable (failures attempts)).mergeSort fun a b => b.2 ≤ a.2 := by
  rw [rankErrors, MessageCounts.toList_ofMessages, foldl_countMessage]
  rfl

theorem rankErrors_perm (attempts : List Attempt) : (rankErrors attempts).Perm (messageTable (failures attempts)) := by
  rw [rankErrors_eq]
  exact List.mergeSort_perm _ _

theorem rankErrors_ranked (attempts : List Attempt) : (rankErrors attempts).Pairwise fun a b => b.2 ≤ a.2 :=
  rankErrors_eq attempts ▸ pairwise_mergeSort_of_total (r := fun a b : String × Nat => b.2 ≤ a.2)
    (fun _ _ _ hab hbc => Nat.le_trans hbc hab) (fun _ _ => Nat.le_total _ _) _

theorem counted_messageTable (messages : List String) : counted (messageTable messages) = messages.length := by
  rw [← foldl_countMessage]
  induction messages using List.reverseRecOn with
  | nil => rfl
  | append_singleton messages m ih => rw [List.foldl_concat, counted_countMessage, ih, List.length_append, List.length_singleton]

theorem counted_rankErrors (attempts : List Attempt) :
    counted (rankErrors attempts) = (failures attempts).length := by
  rw [counted, ((rankErrors_perm attempts).map Prod.snd).sum_nat]
  exact counted_messageTable _

end Summary

end OrderBench
