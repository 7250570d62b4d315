import OrderBench.Proofs.Lexing
import OrderBench.Proofs.Skipping

/-!
A text is read as a value exactly if it says that value. The reader keeps an account of the tokens it has
seen: each open frame, and each value that is whole, holds the tokens that it was read from.
-/
namespace OrderBench.Json

open Token

/-! What has been read. -/

/-- The tokens of an open array. Items are given last first, with their tokens. -/
def itemsRead (read : List (Json × List Token)) : List Token :=
  .beginArray :: (read.reverse.map Prod.snd).flatMap (· ++ [.comma])

def membersRead (read : List ((String × Json) × List Token)) : List Token :=
  .beginObject :: (read.reverse.map memberTokens).flatMap (· ++ [.comma])

/-- The tokens of open frames, up to the value that is read next. -/
inductive Opened : List Frame → List Token → Prop
  | nil : Opened [] []
  | items {outer : List Frame} {ts : List Token} {read : List (Json × List Token)} (h : Opened outer ts)
      (hd : outer.length < deepest) (hr : ∀ item ∈ read, Phrase (deepest - (outer.length + 1)) item.1 item.2) :
      Opened (.items (read.map Prod.fst) :: outer) (ts ++ itemsRead read)
  | member {outer : List Frame} {ts : List Token} {read : List ((String × Json) × List Token)} (h : Opened outer ts)
      (hd : outer.length < deepest) (hr : ∀ m ∈ read, Phrase (deepest - (outer.length + 1)) m.1.2 m.2)
      (key : String) :
      Opened (.member (read.map Prod.fst) key :: outer) (ts ++ (membersRead read ++ [.string (some key), .colon]))

/-- The tokens that bring the reader here. -/
inductive Consumed : Reader → List Token → Prop
  | value {outer : List Frame} {ts : List Token} (h : Opened outer ts) : Consumed (.value outer) ts
  | firstItem {outer : List Frame} {ts : List Token} (h : Opened outer ts) (hd : outer.length < deepest) :
      Consumed (.firstItem outer) (ts ++ [.beginArray])
  | firstName {outer : List Frame} {ts : List Token} (h : Opened outer ts) (hd : outer.length < deepest) :
      Consumed (.firstName outer) (ts ++ [.beginObject])
  | name {outer : List Frame} {ts : List Token} {read : List ((String × Json) × List Token)} (h : Opened outer ts)
      (hd : outer.length < deepest) (hr : ∀ m ∈ read, Phrase (deepest - (outer.length + 1)) m.1.2 m.2) :
      Consumed (.name (read.map Prod.fst) outer) (ts ++ membersRead read)
  | colon {outer : List Frame} {ts : List Token} {read : List ((String × Json) × List Token)} (h : Opened outer ts)
      (hd : outer.length < deepest) (hr : ∀ m ∈ read, Phrase (deepest - (outer.length + 1)) m.1.2 m.2)
      (key : String) :
      Consumed (.colon (read.map Prod.fst) key outer) (ts ++ (membersRead read ++ [.string (some key)]))
  | after {outer : List Frame} {ts vs : List Token} {v : Json} (h : Opened outer ts)
      (hv : Phrase (deepest - outer.length) v vs) : Consumed (.after v outer) (ts ++ vs)

theorem separated_concat {α : Type} (mark : α) (parts : List (List α)) (last : List α) :
    separated mark (parts ++ [last]) = parts.flatMap (· ++ [mark]) ++ last := by
  cases parts with
  | nil => simp [separated]
  | cons part parts =>
      rw [List.cons_append, separated]
      induction parts generalizing part with
      | nil => simp
      | cons next parts ih => simpa using ih next

section
variable {depth : Nat} {v : Json} {vs : List Token}

theorem phrase_items {read : List (Json × List Token)} (h : ∀ item ∈ (v, vs) :: read, Phrase depth item.1 item.2) :
    Phrase (depth + 1) (.array (v :: read.map Prod.fst).reverse) (itemsRead read ++ (vs ++ [.endArray])) := by
  have hphrase := Phrase.array fun item hm => h item (List.mem_reverse.mp hm)
  rw [List.reverse_cons, List.map_append, List.map_append, List.map_singleton, List.map_singleton, separated_concat,
    List.append_assoc] at hphrase
  rw [List.reverse_cons, ← List.map_reverse, itemsRead]
  exact hphrase

theorem phrase_members {read : List ((String × Json) × List Token)} {key : String}
    (h : ∀ m ∈ ((key, v), vs) :: read, Phrase depth m.1.2 m.2) :
    Phrase (depth + 1) (.object ((key, v) :: read.map Prod.fst).reverse)
      (membersRead read ++ (memberTokens ((key, v), vs) ++ [.endObject])) := by
  have hphrase := Phrase.object fun m hm => h m (List.mem_reverse.mp hm)
  rw [List.reverse_cons, List.map_append, List.map_append, List.map_singleton, List.map_singleton, separated_concat,
    List.append_assoc] at hphrase
  rw [List.reverse_cons, ← List.map_reverse, membersRead]
  exact hphrase

end

theorem room_succ {outer : List Frame} (hd : outer.length < deepest) :
    deepest - outer.length = deepest - (outer.length + 1) + 1 := by
  omega

theorem consumed_begin {outer : List Frame} {ts : List Token} (h : Opened outer ts) {t : Token}
    (hn : beginValue (some deepest) outer t ≠ .failed) :
    Consumed (beginValue (some deepest) outer t) (ts ++ [t]) := by
  cases t with
  | null => exact .after h .null
  | boolean b => exact .after h (.boolean b)
  | number n =>
      cases n with
      | none => exact (hn rfl).elim
      | some n => exact .after h (.number n)
  | string s =>
      cases s with
      | none => exact (hn rfl).elim
      | some s => exact .after h (.string s)
  | beginArray =>
      by_cases hd : outer.length < deepest
      · simpa [beginValue, mayOpen, hd] using Consumed.firstItem h hd
      · simp [beginValue, mayOpen, hd] at hn
  | beginObject =>
      by_cases hd : outer.length < deepest
      · simpa [beginValue, mayOpen, hd] using Consumed.firstName h hd
      · simp [beginValue, mayOpen, hd] at hn
  | _ => exact (hn rfl).elim

theorem consumed_after {outer : List Frame} {ts vs : List Token} {v : Json} (h : Opened outer ts)
    (hv : Phrase (deepest - outer.length) v vs) {t : Token} (hn : (Reader.after v outer).next (some deepest) t ≠ .failed) :
    Consumed ((Reader.after v outer).next (some deepest) t) (ts ++ vs ++ [t]) := by
  cases h with
  | nil => exact (hn rfl).elim
  | @items outer ts read h hd hr =>
      have hall : ∀ item ∈ (v, vs) :: read, Phrase (deepest - (outer.length + 1)) item.1 item.2 :=
        List.forall_mem_cons.mpr ⟨hv, hr⟩
      cases t with
      | comma => simpa [Reader.next, itemsRead] using Consumed.value (.items h hd hall)
      | endArray =>
          have hclosed := phrase_items hall
          rw [← room_succ hd] at hclosed
          simpa [Reader.next] using Consumed.after h hclosed
      | _ => exact (hn rfl).elim
  | @member outer ts read h hd hr key =>
      have hall : ∀ m ∈ ((key, v), vs) :: read, Phrase (deepest - (outer.length + 1)) m.1.2 m.2 :=
        List.forall_mem_cons.mpr ⟨hv, hr⟩
      cases t with
      | comma => simpa [Reader.next, membersRead, memberTokens] using Consumed.name h hd hall
      | endObject =>
          have hclosed := phrase_members hall
          rw [← room_succ hd] at hclosed
          simpa [Reader.next, memberTokens] using Consumed.after h hclosed
      | _ => exact (hn rfl).elim

/-- What one token adds. -/
theorem consumed_next {r : Reader} {ts : List Token} (h : Consumed r ts) {t : Token}
    (hn : r.next (some deepest) t ≠ .failed) : Consumed (r.next (some deepest) t) (ts ++ [t]) := by
  cases h with
  | value h => exact consumed_begin h hn
  | @firstItem outer ts h hd =>
      by_cases ht : t = .endArray
      · subst ht
        have hv : Phrase (deepest - outer.length) (.array []) [.beginArray, .endArray] :=
          room_succ hd ▸ @Phrase.array _ [] (List.forall_mem_nil _)
        simpa [Reader.next] using Consumed.after h hv
      · have hbegin : Reader.next (some deepest) (.firstItem outer) t =
            beginValue (some deepest) (.items [] :: outer) t := by
          rw [Reader.next]
          exact ht
        rw [hbegin] at hn ⊢
        exact consumed_begin (@Opened.items _ _ [] h hd (List.forall_mem_nil _)) hn
  | @firstName outer ts h hd =>
      cases t with
      | endObject =>
          have hv : Phrase (deepest - outer.length) (.object []) [.beginObject, .endObject] :=
            room_succ hd ▸ @Phrase.object _ [] (List.forall_mem_nil _)
          simpa [Reader.next] using Consumed.after h hv
      | string s =>
          cases s with
          | none => exact (hn rfl).elim
          | some s => simpa [Reader.next, membersRead] using @Consumed.colon _ _ [] h hd (List.forall_mem_nil _) s
      | _ => exact (hn rfl).elim
  | name h hd hr =>
      cases t with
      | string s =>
          cases s with
          | none => exact (hn rfl).elim
          | some s => simpa [Reader.next] using Consumed.colon h hd hr s
      | _ => exact (hn rfl).elim
  | colon h hd hr key =>
      cases t with
      | colon => simpa [Reader.next] using Consumed.value (.member h hd hr key)
      | _ => exact (hn rfl).elim
  | after h hv => exact consumed_after h hv hn

/-- Reads tokens one after the other, with the greatest nesting of a JSON text. -/
def Reader.run (r : Reader) (ts : List Token) : Reader := ts.foldl (Reader.next (some deepest)) r

@[simp] theorem run_nil (r : Reader) : r.run [] = r := rfl

@[simp] theorem run_cons (r : Reader) (t : Token) (ts : List Token) :
    r.run (t :: ts) = (r.next (some deepest) t).run ts := rfl

@[simp] theorem run_append (r : Reader) (ts us : List Token) : r.run (ts ++ us) = (r.run ts).run us :=
  List.foldl_append

theorem run_failed (ts : List Token) : Reader.failed.run ts = .failed := by
  induction ts with
  | nil => rfl
  | cons t ts ih => exact ih

theorem next_ne_failed {r : Reader} {t : Token} {ts : List Token} (h : r.run (t :: ts) ≠ .failed) :
    r.next (some deepest) t ≠ .failed := by
  intro he
  rw [run_cons, he] at h
  exact h (run_failed ts)

/-- Every run keeps the account. -/
theorem consumed_run {r : Reader} {ts us : List Token} (h : Consumed r ts) (hn : r.run us ≠ .failed) :
    Consumed (r.run us) (ts ++ us) := by
  induction us generalizing r ts with
  | nil => simpa using h
  | cons t us ih => simpa using ih (consumed_next h (next_ne_failed hn)) hn

/-! What a value is read from. -/

theorem Begins.next {r : Reader} {outer : List Frame} (h : Begins r outer) {t : Token} (ht : t ≠ .endArray) :
    r.next (some deepest) t = beginValue (some deepest) outer t := by
  cases h with
  | value => rfl
  | firstItem =>
      rw [Reader.next]
      exact ht

/-- The tokens are read as this value wherever one may begin that has no more than so many arrays and
objects inside each other. -/
def ReadAs (depth : Nat) (v : Json) (vs : List Token) : Prop :=
  ∀ (r : Reader) (outer : List Frame), Begins r outer → outer.length + depth ≤ deepest → r.run vs = .after v outer

theorem readAs_scalar {depth : Nat} {v : Json} {t : Token}
    (h : ∀ outer, beginValue (some deepest) outer t = .after v outer) : ReadAs depth v [t] := by
  intro r outer hr _
  have ht : t ≠ .endArray := by
    rintro rfl
    cases h []
  rw [run_cons, hr.next ht, h, run_nil]

section
variable {depth : Nat} {outer : List Frame} (hd : outer.length + (depth + 1) ≤ deepest)
include hd

theorem run_items {items : List (Json × List Token)} (h : ∀ item ∈ items, ReadAs depth item.1 item.2) (v : Json)
    (read : List Json) :
    (Reader.after v (.items read :: outer)).run ((items.map Prod.snd).flatMap (.comma :: ·) ++ [.endArray]) =
      .after (.array ((v :: read).reverse ++ items.map Prod.fst)) outer := by
  induction items generalizing v read with
  | nil => simp [Reader.next]
  | cons item items ih =>
      have hitem := h item (List.mem_cons_self ..) _ _ (.value (.items (v :: read) :: outer))
        (by rw [List.length_cons]; omega)
      rw [List.map_cons, List.flatMap_cons, List.append_assoc, List.cons_append, run_cons, run_append, Reader.next, hitem,
        ih fun other hm => h other (List.mem_cons_of_mem _ hm)]
      simp

theorem run_array {items : List (Json × List Token)} (h : ∀ item ∈ items, ReadAs depth item.1 item.2) :
    (Reader.firstItem outer).run (separated .comma (items.map Prod.snd) ++ [.endArray]) =
      .after (.array (items.map Prod.fst)) outer := by
  cases items with
  | nil => rfl
  | cons item items =>
      have hitem := h item (List.mem_cons_self ..) _ _ (.firstItem outer) (by rw [List.length_cons]; omega)
      rw [List.map_cons, separated, List.append_assoc, run_append, hitem,
        run_items hd fun other hm => h other (List.mem_cons_of_mem _ hm)]
      rfl

theorem run_member {m : (String × Json) × List Token} (h : ReadAs depth m.1.2 m.2) {r : Reader}
    {read : List (String × Json)} (hr : BeginsMember r read outer) :
    r.run (memberTokens m) = .after m.1.2 (.member read m.1.1 :: outer) := by
  have hname : r.next (some deepest) (.string (some m.1.1)) = .colon read m.1.1 outer := by
    cases hr <;> rfl
  rw [memberTokens, run_cons, run_cons, hname, Reader.next]
  exact h _ _ (.value _) (by rw [List.length_cons]; omega)

theorem run_members {members : List ((String × Json) × List Token)} (h : ∀ m ∈ members, ReadAs depth m.1.2 m.2)
    (v : Json) (key : String) (read : List (String × Json)) :
    (Reader.after v (.member read key :: outer)).run
        ((members.map memberTokens).flatMap (.comma :: ·) ++ [.endObject]) =
      .after (.object (((key, v) :: read).reverse ++ members.map Prod.fst)) outer := by
  induction members generalizing v key read with
  | nil => simp [Reader.next]
  | cons m members ih =>
      have hm := run_member hd (h m (List.mem_cons_self ..)) (.name ((key, v) :: read) outer)
      rw [List.map_cons, List.flatMap_cons, List.append_assoc, List.cons_append, run_cons, run_append, Reader.next, hm,
        ih fun other hm => h other (List.mem_cons_of_mem _ hm)]
      simp

theorem run_object {members : List ((String × Json) × List Token)} (h : ∀ m ∈ members, ReadAs depth m.1.2 m.2) :
    (Reader.firstName outer).run (separated .comma (members.map memberTokens) ++ [.endObject]) =
      .after (.object (members.map Prod.fst)) outer := by
  cases members with
  | nil => rfl
  | cons m members =>
      have hm := run_member hd (h m (List.mem_cons_self ..)) (.firstName outer)
      rw [List.map_cons, separated, List.append_assoc, run_append, hm,
        run_members hd fun other hm => h other (List.mem_cons_of_mem _ hm)]
      rfl

end

theorem phrase_readAs {depth : Nat} {v : Json} {vs : List Token} (h : Phrase depth v vs) : ReadAs depth v vs := by
  have hopens {outer : List Frame} {depth : Nat} (hd : outer.length + (depth + 1) ≤ deepest) :
      mayOpen (some deepest) outer = true := by
    simp only [mayOpen, decide_eq_true_eq]
    omega
  induction h with
  | null => exact readAs_scalar fun _ => rfl
  | boolean b => exact readAs_scalar fun _ => rfl
  | number n => exact readAs_scalar fun _ => rfl
  | string s => exact readAs_scalar fun _ => rfl
  | array _ ih =>
      intro r outer hr hd
      rw [run_cons, hr.next Token.noConfusion, beginValue, if_pos (hopens hd), run_array hd ih]
  | object _ ih =>
      intro r outer hr hd
      rw [run_cons, hr.next Token.noConfusion, beginValue, if_pos (hopens hd), run_object hd ih]

/-! Texts. -/

theorem legible_of_next {r : Reader} {t : Token} (h : r.next (some deepest) t ≠ .failed) : Legible t := by
  by_contra hv
  have ht : t = .invalid ∨ t = .number none ∨ t = .string none := by
    unfold Legible at hv
    split at hv <;> simp_all
  obtain rfl | rfl | rfl := ht <;> rcases r with _ | _ | _ | _ | _ | ⟨_, _ | ⟨_ | _, _⟩⟩ | _ <;> exact h rfl

theorem next_number {r : Reader} {o : Option Number} (h : r.next (some deepest) (.number o) ≠ .failed) :
    ∃ v outer, r.next (some deepest) (.number o) = .after v outer := by
  cases o with
  | none => exact (legible_of_next h).elim
  | some n =>
      rcases r with outer | outer | _ | _ | _ | ⟨_, _ | ⟨_ | _, _⟩⟩ | _
      · exact ⟨_, outer, rfl⟩
      · exact ⟨_, .items [] :: outer, rfl⟩
      all_goals exact (h rfl).elim

theorem after_number {v : Json} {outer : List Frame} {o : Option Number} :
    (Reader.after v outer).next (some deepest) (.number o) = .failed := by
  rcases outer with _ | ⟨_ | _, _⟩ <;> rfl

theorem legible_of_run {r : Reader} {ts : List Token} (h : r.run ts ≠ .failed) : ∀ t ∈ ts, Legible t := by
  induction ts generalizing r with
  | nil => nofun
  | cons t ts ih => exact List.forall_mem_cons.mpr ⟨legible_of_next (next_ne_failed h), ih h⟩

/-- After a number the reader does not take another one. -/
theorem apart_of_run {r : Reader} {ts : List Token} (h : r.run ts ≠ .failed) : Apart ts := by
  induction ts generalizing r with
  | nil => exact .nil
  | cons t ts ih =>
      refine List.isChain_cons.mpr ⟨?_, ih h⟩
      intro u hu ht
      cases ts with
      | nil => cases hu
      | cons w ts =>
          cases hu
          cases t with
          | number o =>
              obtain ⟨v, outer, hv⟩ := next_number (next_ne_failed h)
              rw [run_cons, hv] at h
              have hw := next_ne_failed h
              cases u with
              | number => exact (hw after_number).elim
              | _ => rfl
          | _ => cases ht

theorem parse?_eq_some_iff {text : String} {v : Json} : parse? text = some v ↔ Says text v := by
  have hparse : parse? text = some v ↔ (Reader.value []).run (tokens text.toList) = .after v [] := by
    rw [parse?, ofTokens?, ← Reader.run]
    split
    · next hr => simp [hr]
    · next hr => simpa using fun he => hr v he
  rw [hparse]
  constructor
  · intro h
    have hn : (Reader.value []).run (tokens text.toList) ≠ .failed := by
      rw [h]
      exact Reader.noConfusion
    have hc := consumed_run (.value .nil) hn
    rw [h, List.nil_append] at hc
    refine ⟨_, ?_, lexed_tokens (legible_of_run hn)⟩
    generalize tokens text.toList = ts at hc
    cases hc with
    | after ho hv =>
        cases ho
        exact hv
  · rintro ⟨ts, hp, hl⟩
    have hrun := phrase_readAs hp (.value []) [] (.value []) (Nat.le_refl _)
    have hn : (Reader.value []).run ts ≠ .failed := by
      rw [hrun]
      exact Reader.noConfusion
    rw [tokens_lexed hl (apart_of_run hn), hrun]

theorem says_of_tokens {text : String} {ts : List Token} {v : Json} (h : tokens text.toList = ts)
    (hv : ofTokens? ts = some v) : Says text v := by
  rw [← h] at hv
  exact parse?_eq_some_iff.mp hv

/-- A text says no more than one value. -/
theorem Says.unique {text : String} {v w : Json} (hv : Says text v) (hw : Says text w) : v = w := by
  rw [← parse?_eq_some_iff] at hv hw
  exact Option.some.inj (hv.symm.trans hw)

end OrderBench.Json
