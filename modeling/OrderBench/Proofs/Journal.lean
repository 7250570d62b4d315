import OrderBench.Journal

/-!
The ids in a journal: which were offered as open orders, which were accepted or refused, and which a
call was made to cancel. In an orderly journal each of these happened when it could.
-/
namespace OrderBench

def Call.cancels? : Call → Option String
  | .cancel id => some id
  | .place _ => none

namespace Entry

def offered? : Entry → Option String
  | .registered id | .refused id => some id
  | _ => none

def refused? : Entry → Option String
  | .refused id => some id
  | _ => none

/-- An entry without an id and without a call. -/
def Aside : Entry → Prop
  | .registered _ | .refused _ | .taken _ | .called _ _ => False
  | _ => True

end Entry

namespace Journal

def offers (j : Journal) : List String := j.reverse.filterMap Entry.offered?

/-- The ids that were offered while they were open. -/
def refusals (j : Journal) : List String := j.reverse.filterMap Entry.refused?

/-- What the log warns of, which is never a complaint. -/
def warnings (j : Journal) : List (Level × String) := (j.log id).filter (·.1 = .warn)

def cancelled (j : Journal) : List String := j.calls.filterMap (·.2.cancels?)

/-- The id was accepted, and no call was made to cancel it since. -/
def Awaits (id : String) : Journal → Prop
  | [] => False
  | .registered other :: j => other = id ∨ Awaits id j
  | .called _ (.cancel other) :: j => other ≠ id ∧ Awaits id j
  | _ :: j => Awaits id j

/-- An id is accepted when it is not awaiting its cancel, else refused, and is cancelled only when it is. -/
def Orderly : Journal → Prop
  | [] => True
  | .registered id :: j => ¬Awaits id j ∧ Orderly j
  | .refused id :: j => Awaits id j ∧ Orderly j
  | .called _ (.cancel id) :: j => Awaits id j ∧ Orderly j
  | _ :: j => Orderly j

@[simp] theorem calls_cons (e : Entry) (j : Journal) : calls (e :: j) = calls j ++ e.call?.toList := by
  cases h : e.call? <;> simp [calls, h]

@[simp] theorem registrations_cons (e : Entry) (j : Journal) :
    registrations (e :: j) = registrations j ++ e.registered?.toList := by
  cases h : e.registered? <;> simp [registrations, h]

@[simp] theorem offers_cons (e : Entry) (j : Journal) : offers (e :: j) = offers j ++ e.offered?.toList := by
  cases h : e.offered? <;> simp [offers, h]

@[simp] theorem refusals_cons (e : Entry) (j : Journal) : refusals (e :: j) = refusals j ++ e.refused?.toList := by
  cases h : e.refused? <;> simp [refusals, h]

@[simp] theorem log_cons (complaint : String → String) (e : Entry) (j : Journal) :
    log (e :: j) complaint = log j complaint ++ (e.record? complaint).toList := by
  cases h : e.record? complaint <;> simp [log, h]

theorem registrations_sublist (j : Journal) : j.registrations.Sublist j.offers := by
  induction j with
  | nil => exact .refl _
  | cons e j ih =>
      rw [registrations_cons, offers_cons]
      apply ih.append
      cases e <;> simp [Entry.registered?, Entry.offered?]

theorem length_offers (j : Journal) : j.offers.length = j.registrations.length + j.refusals.length := by
  induction j with
  | nil => rfl
  | cons e j ih =>
      rw [offers_cons, registrations_cons, refusals_cons]
      simp only [List.length_append, ih]
      cases e <;> simp [Entry.offered?, Entry.registered?, Entry.refused?] <;> omega

/-- Whatever the complaints, the log warns of the ids that were refused, and of nothing else. -/
theorem filter_log (complaint : String → String) (j : Journal) :
    (j.log complaint).filter (·.1 = .warn) =
      j.refusals.map fun id => (.warn, s!"Ignoring duplicate order id {id}") := by
  induction j with
  | nil => rfl
  | cons e j ih =>
      rw [log_cons, List.filter_append, refusals_cons, List.map_append, ← ih]
      cases e <;> simp [Entry.record?, Entry.refused?]

theorem warnings_eq (j : Journal) :
    j.warnings = j.refusals.map fun id => (.warn, s!"Ignoring duplicate order id {id}") := filter_log id j

@[simp] theorem cancelled_cons (e : Entry) (j : Journal) :
    cancelled (e :: j) = cancelled j ++ (e.call?.bind (·.2.cancels?)).toList := by
  rw [cancelled, calls_cons, List.filterMap_append, cancelled]
  cases e.call? with
  | none => rfl
  | some c => cases h : c.2.cancels? <;> simp [h]

variable {e : Entry} {j : Journal}

theorem calls_aside (h : e.Aside) : calls (e :: j) = calls j := by
  cases e <;> simp_all [Entry.Aside, Entry.call?]

theorem registrations_aside (h : e.Aside) : registrations (e :: j) = registrations j := by
  cases e <;> simp_all [Entry.Aside, Entry.registered?]

theorem offers_aside (h : e.Aside) : offers (e :: j) = offers j := by
  cases e <;> simp_all [Entry.Aside, Entry.offered?]

theorem warnings_aside (h : e.Aside) : warnings (e :: j) = warnings j := by
  rw [warnings_eq, warnings_eq, refusals_cons]
  cases e <;> simp_all [Entry.Aside, Entry.refused?]

theorem cancelled_aside (h : e.Aside) : cancelled (e :: j) = cancelled j := by
  rw [cancelled, calls_aside h, cancelled]

theorem awaits_aside (h : e.Aside) {id : String} : Awaits id (e :: j) ↔ Awaits id j := by
  cases e <;> simp_all [Entry.Aside, Awaits]

theorem orderly_aside (h : e.Aside) : Orderly (e :: j) ↔ Orderly j := by
  cases e <;> simp_all [Entry.Aside, Orderly]

theorem orderly_of_append {newer older : Journal} (h : Orderly (newer ++ older)) : Orderly older := by
  induction newer with
  | nil => exact h
  | cons e newer ih =>
      refine ih ?_
      rw [List.cons_append] at h
      cases e with
      | registered | refused => exact h.2
      | called time call =>
          cases call with
          | place => exact h
          | cancel => exact h.2
      | _ => exact h

theorem registered_of_awaits {id : String} (h : Awaits id j) : .registered id ∈ j := by
  induction j with
  | nil => exact h.elim
  | cons e j ih =>
      cases e with
      | registered other =>
          obtain rfl | h := h
          · exact List.mem_cons_self ..
          · exact List.mem_cons_of_mem _ (ih h)
      | called time call =>
          cases call with
          | place => exact List.mem_cons_of_mem _ (ih h)
          | cancel => exact List.mem_cons_of_mem _ (ih h.2)
      | _ => exact List.mem_cons_of_mem _ (ih h)

/-- An id that is awaited after a call to cancel it was accepted after that call. -/
theorem registered_since {id : String} {time : Nat} {newer older : Journal}
    (h : Awaits id (newer ++ .called time (.cancel id) :: older)) : .registered id ∈ newer := by
  induction newer with
  | nil => exact absurd rfl h.1
  | cons e newer ih =>
      cases e with
      | registered other =>
          obtain rfl | h := h
          · exact List.mem_cons_self ..
          · exact List.mem_cons_of_mem _ (ih h)
      | called time call =>
          cases call with
          | place => exact List.mem_cons_of_mem _ (ih h)
          | cancel => exact List.mem_cons_of_mem _ (ih h.2)
      | _ => exact List.mem_cons_of_mem _ (ih h)

end Journal

end OrderBench
