import OrderBench.Proofs.Alike
import OrderBench.Proofs.Desk
import OrderBench.Proofs.Reading
import OrderBench.Proofs.Vanishing
import OrderBench.Session

/-!
The order id that the response to a placement brings, for every text that a response can have: what a text says
decides it, and not how the text says it.
-/
namespace OrderBench

open Json

/-- The id that an `orderId` gives. A number is given by a literal of it. -/
inductive FieldGives : Option Json → Option String → Prop
  | absent : FieldGives none none
  | null : FieldGives (some .null) none
  | boolean (b : Bool) : FieldGives (some (.boolean b)) none
  | array (items : List Json) : FieldGives (some (.array items)) none
  | object (members : List (String × Json)) : FieldGives (some (.object members)) none
  | empty : FieldGives (some (.string "")) none
  | string {s : String} (h : s ≠ "") : FieldGives (some (.string s)) (some s)
  | integer {l : Number.Literal} {v : Number} {n : Int} (hv : l.value? = some v) (hf : l.fraction = [])
      (he : l.exponent = none) (hn : l.exact = n) (h0 : n ≠ 0) (hl : -2 ^ 63 ≤ n) (hu : n < 2 ^ 64) :
      FieldGives (some (.number v)) (some (toString n))
  | zero {l : Number.Literal} {v : Number} (hv : l.value? = some v) (hz : |l.exact| ≤ 10 ^ (-324 : Int)) :
      FieldGives (some (.number v)) none
  | double {x : Binary64} (h : x.isZero = false) : FieldGives (some (.number (.double x))) (some (Number.doubleText x))

/-- The id that a response gives, if it is an envelope at all. -/
inductive EnvelopeGives : Json → Option (Option String) → Prop
  | noData {members : List (String × Json)} (h : get? "data" members = none) : EnvelopeGives (.object members) (some none)
  | data {members fields : List (String × Json)} {id : Option String} (h : get? "data" members = some (.object fields))
      (hid : FieldGives (get? "orderId" fields) id) : EnvelopeGives (.object members) (some id)
  | otherData {members : List (String × Json)} {v : Json} (h : get? "data" members = some v)
      (hv : ∀ fields, v ≠ .object fields) : EnvelopeGives (.object members) none

theorem Number.value_of_integer {l : Literal} {n : Int} (hf : l.fraction = []) (he : l.exponent = none)
    (hn : l.exact = n) (h0 : n ≠ 0) (hfits : Fits n) : l.value? = some (.integer n) := by
  have hpower : l.power = 0 := by rw [Literal.power, he]
  have hvalue : (if l.negative = true then -(ofDigits l.whole : Int) else ofDigits l.whole) = n := by
    rw [Literal.exact, hf, List.append_nil, hpower, List.length_nil, Nat.cast_zero, sub_zero, zpow_zero, mul_one] at hn
    cases hneg : l.negative <;> simp only [hneg, Bool.false_eq_true, if_false, if_true] at hn ⊢
    · rw [one_mul] at hn
      exact_mod_cast hn
    · rw [neg_one_mul] at hn
      exact_mod_cast hn
  simp only [Literal.value?, hvalue]
  exact if_pos ⟨hf, he, hfits, fun h => h0 h.2⟩

theorem orderIdOf_of_gives {field : Option Json} {id : Option String} (h : FieldGives field id) : orderIdOf field = id := by
  cases h with
  | @string s hs => simp [orderIdOf, hs]
  | @integer l v n hv hf he hn h0 hl hu =>
      have hfits : Number.Fits n := by
        unfold Number.Fits Number.maxUnsigned
        omega
      rw [Number.value_of_integer hf he hn h0 hfits] at hv
      cases hv
      simp [orderIdOf, Number.isZero, Number.text, h0]
  | @zero l v hv hz =>
      obtain ⟨n, hn, hzero⟩ := Number.value_of_vanishing hz
      rw [hn] at hv
      cases hv
      simp [orderIdOf, hzero]
  | double hx => simp [orderIdOf, Number.isZero, Number.text, hx]
  | _ => rfl

theorem orderId_said {text : String} {v : Json} (h : Says text v) : orderId text = orderIdIn v := by
  rw [orderId, parse?_eq_some_iff.mpr h]

theorem orderId_of_gives {text : String} {v : Json} {id : Option (Option String)} (h : Says text v)
    (hv : EnvelopeGives v id) : (orderId text).toOption = id := by
  rw [orderId_said h]
  cases hv with
  | noData hd => simp [orderIdIn, hd, Except.toOption]
  | data hd hid => simp [orderIdIn, hd, orderIdOf_of_gives hid, Except.toOption]
  | @otherData members v hd hv =>
      cases v with
      | object fields => exact (hv fields rfl).elim
      | _ => simp [orderIdIn, hd, Except.toOption]

theorem orderId_of_unreadable {text : String} (h : ∀ members, ¬Says text (.object members)) :
    (orderId text).toOption = none := by
  unfold orderId
  cases hp : parse? text with
  | none => rfl
  | some v =>
      cases v with
      | object members => exact (h members (parse?_eq_some_iff.mp hp)).elim
      | _ => rfl

/-- The envelopes hold the same, or the same data, or data with the same id, whatever else they hold. -/
inductive Agree (ms ns : List (String × Json)) : Prop
  | envelope (h : Alike (.object ms) (.object ns))
  | data (h : AlikeAt "data" ms ns)
  | orderId {fields others : List (String × Json)} (hm : get? "data" ms = some (.object fields))
      (hn : get? "data" ns = some (.object others)) (h : AlikeAt "orderId" fields others)

theorem orderIdOf_alike {name : String} {ms ns : List (String × Json)} (h : AlikeAt name ms ns) :
    orderIdOf (get? name ms) = orderIdOf (get? name ns) := by
  obtain ⟨hm, hn⟩ | ⟨v, w, hm, hn, hvw⟩ := h
  · rw [hm, hn]
  · rw [hm, hn]
    cases hvw <;> rfl

theorem unexpectedData_alike {v w : Json} (h : Alike v w) (complaint : String → String) :
    (EnvelopeFault.unexpectedData v).message complaint = (EnvelopeFault.unexpectedData w).message complaint :=
  congrArg ("unexpected data field: " ++ ·) h.compact_eq

theorem orderIdIn_alike {ms ns : List (String × Json)} (h : AlikeAt "data" ms ns) (complaint : String → String) :
    (orderIdIn (.object ms)).mapError (·.message complaint) =
      (orderIdIn (.object ns)).mapError (·.message complaint) := by
  obtain ⟨hm, hn⟩ | ⟨v, w, hm, hn, hvw⟩ := h
  · simp [orderIdIn, hm, hn]
  · have hother := congrArg (Except.error (α := Option String)) (unexpectedData_alike hvw complaint)
    cases hvw with
    | object hns hall => simp [orderIdIn, hm, hn, orderIdOf_alike ((Alike.object hns hall).member "orderId")]
    | array => simpa [orderIdIn, hm, hn, Except.mapError] using hother
    | _ => simp [orderIdIn, hm, hn]

/-- Envelopes that agree give the same id, or errors with the same text. -/
theorem orderIdIn_agree {ms ns : List (String × Json)} (h : Agree ms ns) (complaint : String → String) :
    (orderIdIn (.object ms)).mapError (·.message complaint) =
      (orderIdIn (.object ns)).mapError (·.message complaint) := by
  cases h with
  | envelope h => exact orderIdIn_alike (h.member "data") complaint
  | data h => exact orderIdIn_alike h complaint
  | orderId hm hn h => simp [orderIdIn, hm, hn, orderIdOf_alike h]

/-! A placement and the next cancel. -/

/-- The only open order is the one that is cancelled next. -/
theorem Desk.cancel_registered {d : Desk} (h : d.openOrders.toList = []) (id : String) (time : Nat) :
    ((d.register id).cancel time none).1 = some (.cancel id) ∧
      ((d.register id).cancel time none).2.journal.calls = d.journal.calls ++ [(time, .cancel id)] := by
  obtain ⟨-, o, ho, hd⟩ | ⟨hm, -⟩ := d.register_cases id
  · rw [h, List.nil_append] at ho
    cases ht : o.take? with
    | none =>
        rw [o.take?_eq_none_iff, ho] at ht
        cases ht
    | some found =>
        obtain ⟨other, rest⟩ := found
        have hl := OpenOrders.toList_of_take? ht
        rw [ho, List.cons.injEq] at hl
        obtain ⟨rfl, -⟩ := hl
        rw [hd, Desk.cancel_some { d with openOrders := o, journal := .registered id :: d.journal } time ht]
        simp [Entry.call?]
  · rw [h] at hm
    cases hm

namespace Session

variable (s : Session)

/-- What the service answers to the next placement. -/
def nextAnswer (side : Option Side) (price : Option Int64) : Answer :=
  s.venue (s.tally.placed + 1) (s.desk.place s.now side price).1

/-- Without open orders, a placement that brings an id is followed by the cancel of that id. -/
theorem place_cancel (hopen : s.desk.openOrders.toList = []) {side : Option Side} {price : Option Int64}
    {body id : String} (ha : (s.nextAnswer side price).outcome = .ok ⟨200, body⟩)
    (hid : (orderId body).toOption = some (some id)) :
    ((s.place side price).2.cancel none).2.desk.journal.calls =
      s.desk.journal.calls ++ [(s.now, .place (s.desk.draft side price).1), ((s.place side price).2.now, .cancel id)] := by
  have hid : orderId body = .ok (some id) := by
    cases h : orderId body with
    | error fault =>
        rw [h] at hid
        cases hid
    | ok found =>
        rw [h] at hid
        exact congrArg _ (Option.some.inj hid)
  have hplaced : (s.place side price).2.desk = ((s.desk.draft side price).2.note
      (.called s.now (.place (s.desk.draft side price).1))).register id := by
    change (Desk.settle _ _ (s.nextAnswer side price)).2 = _
    simp only [Desk.settle, ha, Desk.judge, Response.isOk, hid]
    rfl
  generalize (s.place side price).2 = t at hplaced ⊢
  obtain ⟨hcall, hcalls⟩ := Desk.cancel_registered (d := (s.desk.draft side price).2.note
    (.called s.now (.place (s.desk.draft side price).1))) hopen id t.now
  rw [← hplaced] at hcall hcalls
  have hcancelled : (t.cancel none).2.desk.journal.calls = (t.desk.cancel t.now none).2.journal.calls := by
    change (t.await (t.desk.cancel t.now none).1 (t.desk.cancel t.now none).2).2.desk.journal.calls = _
    rw [hcall]
    exact Desk.settle_calls ..
  rw [hcancelled, hcalls, Desk.note_journal, Journal.calls_cons, List.append_assoc]
  rfl

end Session

/-- What the text of a response says decides the id that it brings, and that id is the one that is
cancelled next. -/
theorem orderId_exact (text : String) :
    (∀ (v : Json) (id : Option (Option String)), Says text v → EnvelopeGives v id → (orderId text).toOption = id) ∧
    ((∀ members, ¬Says text (.object members)) → (orderId text).toOption = none) ∧
    (∀ (ms ns : List (String × Json)) (other : String), Says text (.object ms) → Says other (.object ns) → Agree ms ns →
      ∀ complaint, (orderId text).mapError (·.message complaint) = (orderId other).mapError (·.message complaint)) ∧
    ∀ (s : Session) (side : Option Side) (price : Option Int64) (v : Json) (id : String),
      s.desk.openOrders.toList = [] → (s.nextAnswer side price).outcome = .ok ⟨200, text⟩ →
      Says text v → EnvelopeGives v (some (some id)) →
      ((s.place side price).2.cancel none).2.desk.journal.calls = s.desk.journal.calls ++
        [(s.now, .place (s.desk.draft side price).1), ((s.place side price).2.now, .cancel id)] := by
  refine ⟨fun v id => orderId_of_gives, orderId_of_unreadable, ?_, ?_⟩
  · intro ms ns other hm hn h
    rw [orderId_said hm, orderId_said hn]
    exact orderIdIn_agree h
  · intro s side price v id hopen ha hv hid
    exact s.place_cancel hopen ha (orderId_of_gives hv hid)

/-- The same integer, on the bound, in two texts: one with a name in escapes, after another member of that name. A
number that vanishes, and an array. -/
theorem orderId_exact_of_spellings :
    let plain := "\x7b\"data\":\x7b\"orderId\":-9223372036854775808\x7d\x7d"
    let escaped := "\x7b\"data\":7,\"\\u0064ata\" : \x7b\"a\":1,\"orderId\":-9223372036854775808\x7d\x7d"
    let tiny := "\x7b\"data\":\x7b\"orderId\":1e-400\x7d\x7d"
    let s : Session := {
      venue := fun number _ => ⟨number, .ok ⟨200, plain⟩⟩
      permits := 1
      desk := { symbol := "BTCUSDT", draws := .cyclic #[] } }
    let t := (s.place none none).2
    (orderId plain).toOption = some (some "-9223372036854775808") ∧
      (∀ complaint, (orderId escaped).mapError (·.message complaint) = (orderId plain).mapError (·.message complaint)) ∧
      (orderId tiny).toOption = some none ∧ (orderId "[\x7b\x7d]").toOption = none ∧
      (t.cancel none).2.desk.journal.calls = s.desk.journal.calls ++
        [(s.now, .place (s.desk.draft none none).1), (t.now, .cancel "-9223372036854775808")] := by
  intro plain escaped tiny s t
  let least : Json := .number (.integer (-9223372036854775808))
  have hplain : Says plain (.object [("data", .object [("orderId", least)])]) := by
    have htokens : tokens plain.toList = [.beginObject, .string (some "data"), .colon, .beginObject,
        .string (some "orderId"), .colon, .number (some (.integer (-9223372036854775808))), .endObject, .endObject] := by
      decide +kernel
    exact says_of_tokens htokens rfl
  have hescaped : Says escaped (.object [("data", .number (.integer 7)),
      ("data", .object [("a", .number (.integer 1)), ("orderId", least)])]) := by
    have htokens : tokens escaped.toList = [.beginObject, .string (some "data"), .colon, .number (some (.integer 7)),
        .comma, .string (some "data"), .colon, .beginObject, .string (some "a"), .colon, .number (some (.integer 1)),
        .comma, .string (some "orderId"), .colon, .number (some (.integer (-9223372036854775808))), .endObject,
        .endObject] := by
      decide +kernel
    exact says_of_tokens htokens rfl
  have htiny : Says tiny (.object [("data", .object [("orderId", .number (.double .zero))])]) := by
    have htokens : tokens tiny.toList = [.beginObject, .string (some "data"), .colon, .beginObject,
        .string (some "orderId"), .colon, .number (some (.double .zero)), .endObject, .endObject] := by
      decide +kernel
    exact says_of_tokens htokens rfl
  have harray : Says "[\x7b\x7d]" (.array [.object []]) := by
    have htokens : tokens "[\x7b\x7d]".toList = [.beginArray, .beginObject, .endObject, .endArray] := by decide +kernel
    exact says_of_tokens htokens rfl
  have hleast : FieldGives (some least) (some "-9223372036854775808") := by
    have hexact : Number.Literal.exact ⟨true, [9, 2, 2, 3, 3, 7, 2, 0, 3, 6, 8, 5, 4, 7, 7, 5, 8, 0, 8], [], none⟩ =
        (-9223372036854775808 : Int) := by
      norm_num [Number.Literal.exact, Number.Literal.power, Number.ofDigits]
    exact .integer (by decide) rfl rfl hexact (by decide) (by decide) (by decide)
  have hgives : EnvelopeGives (.object [("data", .object [("orderId", least)])]) (some (some "-9223372036854775808")) :=
    .data (get?_cons ..) hleast
  have hzero : FieldGives (some (.number (.double .zero))) none := by
    have hexact : |Number.Literal.exact ⟨false, [1], [], some (true, [4, 0, 0])⟩| ≤ 10 ^ (-324 : Int) := by
      have hdigits : (Number.ofDigits ([1] ++ []) : ℚ) = 1 := by norm_num [Number.ofDigits]
      rw [Number.abs_exact, hdigits, one_mul]
      exact zpow_le_zpow_right₀ (by norm_num) (by decide)
    exact .zero (by decide +kernel) hexact
  have hagree : Agree [("data", .number (.integer 7)), ("data", .object [("a", .number (.integer 1)), ("orderId", least)])]
      [("data", .object [("orderId", least)])] :=
    .orderId rfl rfl (.inr ⟨least, least, rfl, rfl, .number _⟩)
  have hid := (orderId_exact plain).1 _ _ hplain hgives
  have hsame := (orderId_exact escaped).2.2.1 _ _ _ hescaped hplain hagree
  have hnone := (orderId_exact tiny).1 _ _ htiny (.data rfl hzero)
  have hfault := (orderId_exact "[\x7b\x7d]").2.1 fun _ h => Json.noConfusion (h.unique harray)
  have hcalls := (orderId_exact plain).2.2.2 s none none _ _ rfl rfl hplain hgives
  exact ⟨hid, hsame, hnone, hfault, hcalls⟩

end OrderBench
