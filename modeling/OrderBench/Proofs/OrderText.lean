import OrderBench.Order.Decode
import OrderBench.Proofs.Skipping

/-!
Orders as texts. A text that has the six members of an order, in any order and among any others, or its six
values as an array, is read as that order, whatever its blanks and the spelling of its strings; what an order
is written as is such a text.
-/
namespace OrderBench

open Json Decode

/-! The texts of an order. -/

namespace OrderRequest

/-- A text of the value of a field. -/
def FieldText (r : OrderRequest) : Field → List Char → Prop
  | .symbol, cs => StringText r.symbol cs
  | .orderType, cs => StringText (word r.orderType) cs
  | .side, cs => StringText (word r.side) cs
  | .price, cs => cs = (toString r.price.toInt).toList
  | .quantity, cs => cs = (toString r.quantity.toInt).toList
  | .timeInForce, cs => StringText (word r.timeInForce) cs

/-- A member of an object: that of a field of the order, or one with another name and any value. -/
inductive MemberText (r : OrderRequest) : Option Field → Member → Prop
  | field {f : Field} {m : Member} (hn : StringText f.name m.name.core) (hv : r.FieldText f m.value.core) :
      MemberText r (some f) m
  | other {name : String} {m : Member} (hn : StringText name m.name.core) (ho : ∀ f : Field, f.name ≠ name)
      (hv : ValueText m.value.core) : MemberText r none m

/-- An object with each field of the order once, whatever else it has. -/
def ObjectText (r : OrderRequest) (text : String) : Prop :=
  ∃ (entries : List (Option Field × Member)) (whole : Padded), (∀ e ∈ entries, r.MemberText e.1 e.2) ∧
    (entries.filterMap Prod.fst).Perm Field.all ∧
    whole.core = '{' :: (separated ',' (entries.map fun e => e.2.text) ++ ['}']) ∧ text.toList = whole.text

/-- The array of the values of the order, as its fields are declared. -/
def ArrayText (r : OrderRequest) (text : String) : Prop :=
  ∃ (value : Field → Padded) (whole : Padded), (∀ f, r.FieldText f (value f).core) ∧
    whole.core = '[' :: (separated ',' (Field.all.map fun f => (value f).text) ++ [']']) ∧ text.toList = whole.text

/-! Their tokens. -/

def token (r : OrderRequest) : Field → Token
  | .symbol => .string (some r.symbol)
  | .orderType => .string (some (word r.orderType))
  | .side => .string (some (word r.side))
  | .price => .number (some (.integer r.price.toInt))
  | .quantity => .number (some (.integer r.quantity.toInt))
  | .timeInForce => .string (some (word r.timeInForce))

end OrderRequest

theorem scans_string {s : String} {cs : List Char} (h : StringText s cs) : Scans cs [.string (some s)] :=
  fun rest _ => tokens_string h rest

theorem scans_integer (n : Int64) : Scans (toString n.toInt).toList [.number (some (.integer n.toInt))] := by
  have hlow := n.le_toInt
  have hhigh := n.toInt_lt
  have hn : Number.Fits n.toInt := by
    unfold Number.Fits Number.maxUnsigned
    omega
  exact fun rest hr => tokens_integer hn hr

variable {r : OrderRequest}

theorem scans_field {f : Field} {cs : List Char} (h : r.FieldText f cs) : Scans cs [r.token f] := by
  cases f with
  | symbol | orderType | side | timeInForce => exact scans_string h
  | price | quantity =>
      cases h
      exact scans_integer _

/-- The tokens of a member: its name, and the value of its field or any other. -/
def OrderRequest.MemberTokens (r : OrderRequest) (field : Option Field) (ms : List Token) : Prop :=
  ∃ name vs, ms = .string (some name) :: .colon :: vs ∧ match field with
    | some f => name = f.name ∧ vs = [r.token f]
    | none => (∀ f : Field, f.name ≠ name) ∧ Skipped vs

theorem scans_member {field : Option Field} {m : Member} (h : r.MemberText field m) :
    ∃ ms, Scans m.text ms ∧ r.MemberTokens field ms := by
  cases h with
  | field hn hv => exact ⟨_, (scans_string hn).member (scans_field hv), _, _, rfl, rfl, rfl⟩
  | other hn ho hv =>
      obtain ⟨vs, hs, hskip⟩ := scans_value hv
      exact ⟨_, (scans_string hn).member hs, _, _, rfl, ho, hskip⟩

/-! Reading. -/

/-- What is known of the order when these fields were read. -/
def OrderRequest.draft (r : OrderRequest) (read : List Field) : Draft where
  symbol := if .symbol ∈ read then some r.symbol else none
  orderType := if .orderType ∈ read then some r.orderType else none
  side := if .side ∈ read then some r.side else none
  price := if .price ∈ read then some r.price else none
  quantity := if .quantity ∈ read then some r.quantity else none
  timeInForce := if .timeInForce ∈ read then some r.timeInForce else none

theorem draft_has (f : Field) (read : List Field) : (r.draft read).has f = decide (f ∈ read) := by
  cases f <;> simp only [OrderRequest.draft, Draft.has] <;> split <;> simp_all

theorem draft_complete {read : List Field} (h : ∀ f, f ∈ read) : (r.draft read).complete = .ok r := by
  simp [OrderRequest.draft, h, Draft.complete, Field.need, bind, Except.bind, pure, Except.pure]

theorem integer_token (n : Int64) (ts : List Token) :
    integer (.number (some (.integer n.toInt)) :: ts) = .ok (n, ts) := by
  have hlow := n.le_toInt
  have hhigh := n.toInt_lt
  have hn : IsPrice n.toInt := by
    unfold IsPrice
    omega
  rw [integer, if_pos hn, Int64.ofInt_toInt]

theorem word_token {α : Type} [Word α] {a : α} (h : findWord (OrderBench.word a) = .ok a) (ts : List Token) :
    Decode.word (.string (some (OrderBench.word a)) :: ts) = .ok (a, ts) := by
  rw [Decode.word, h]
  rfl

theorem findWord_orderType (t : OrderType) : findWord (OrderBench.word t) = .ok t := by cases t; rfl

theorem findWord_side (s : Side) : findWord (OrderBench.word s) = .ok s := by cases s <;> rfl

theorem findWord_timeInForce (t : TimeInForce) : findWord (OrderBench.word t) = .ok t := by cases t; rfl

theorem draft_read (f : Field) (read : List Field) (ts : List Token) :
    (r.draft read).read f (r.token f :: ts) = .ok (r.draft (f :: read), ts) := by
  cases f with
  | symbol => simp [OrderRequest.draft, OrderRequest.token, Draft.read, Decode.string, Except.map]
  | orderType =>
      simp [OrderRequest.draft, OrderRequest.token, Draft.read, word_token (findWord_orderType _), Except.map]
  | side => simp [OrderRequest.draft, OrderRequest.token, Draft.read, word_token (findWord_side _), Except.map]
  | price => simp [OrderRequest.draft, OrderRequest.token, Draft.read, integer_token, Except.map]
  | quantity => simp [OrderRequest.draft, OrderRequest.token, Draft.read, integer_token, Except.map]
  | timeInForce =>
      simp [OrderRequest.draft, OrderRequest.token, Draft.read, word_token (findWord_timeInForce _), Except.map]

theorem find_name (f : Field) : Field.all.find? (·.name = f.name) = some f := by cases f <;> rfl

theorem memberValue_token {field : Option Field} {name : String} {vs : List Token} {read : List Field}
    (h : r.MemberTokens field (.string (some name) :: .colon :: vs)) (hnew : ∀ f ∈ field, f ∉ read)
    (ts : List Token) : memberValue (r.draft read) name (.colon :: (vs ++ ts)) = .ok (r.draft (field.toList ++ read), ts) := by
  obtain ⟨other, ws, he, hm⟩ := h
  simp only [List.cons.injEq, Token.string.injEq, Option.some.injEq, true_and] at he
  obtain ⟨rfl, rfl⟩ := he
  cases field with
  | some f =>
      obtain ⟨rfl, rfl⟩ := hm
      have hhas : (r.draft read).has f = false := by
        rw [draft_has]
        simpa using hnew f rfl
      simp [memberValue, find_name, hhas, draft_read]
  | none =>
      obtain ⟨hother, hskip⟩ := hm
      have hfind : Field.all.find? (·.name = name) = none := by
        rw [List.find?_eq_none]
        intro f _
        simpa using hother f
      obtain ⟨v, hv⟩ := hskip _ _ (.value []) ts
      have hrest : skip (.after v []) ts = some ts := by rw [skip]
      simp [memberValue, hfind, hv, hrest]

theorem members_last {d e : Draft} {name : String} {ts rest : List Token}
    (h : memberValue d name ts = .ok (e, .endObject :: rest)) :
    members d (.string (some name) :: ts) = .ok (e, rest) := by
  rw [members]
  split <;> simp_all

theorem members_next {d e : Draft} {name : String} {ts rest : List Token}
    (h : memberValue d name ts = .ok (e, .comma :: rest)) :
    members d (.string (some name) :: ts) = members e rest := by
  rw [members]
  split <;> simp_all

theorem fresh_of_nodup {field : Option Field} {next read : List Field}
    (h : (field.toList ++ (next ++ read)).Nodup) : ∀ f ∈ field, f ∉ read := by
  intro f hf hread
  have := (List.nodup_append.mp h).2.2 f (Option.mem_toList.mpr hf) f (List.mem_append_right _ hread)
  exact this rfl

theorem members_tokens {entries : List (Option Field × List Token)} (h : ∀ e ∈ entries, r.MemberTokens e.1 e.2)
    {field : Option Field} {ms : List Token} (hm : r.MemberTokens field ms) {read : List Field}
    (hnew : (field.toList ++ (entries.filterMap Prod.fst ++ read)).Nodup) (ts : List Token) :
    members (r.draft read) (ms ++ ((entries.map Prod.snd).flatMap (.comma :: ·) ++ .endObject :: ts)) =
      .ok (r.draft ((entries.filterMap Prod.fst).reverse ++ (field.toList ++ read)), ts) := by
  induction entries generalizing field ms read with
  | nil =>
      obtain ⟨name, vs, rfl, -⟩ := id hm
      exact members_last (memberValue_token hm (fresh_of_nodup hnew) _)
  | cons e entries ih =>
      obtain ⟨other, ws⟩ := e
      obtain ⟨name, vs, rfl, -⟩ := id hm
      have hvalue := memberValue_token hm (fresh_of_nodup hnew)
      have hfields : ((other, ws) :: entries).filterMap Prod.fst = other.toList ++ entries.filterMap Prod.fst := by
        cases other <;> rfl
      have hback : (other.toList ++ entries.filterMap Prod.fst).reverse =
          (entries.filterMap Prod.fst).reverse ++ other.toList := by
        cases other <;> simp
      -- what was read moves behind what is still to come
      rw [hfields, (List.perm_append_comm_assoc _ _ _).nodup_iff, List.append_assoc] at hnew
      rw [hfields, hback, List.append_assoc]
      rw [← ih (fun e he => h e (List.mem_cons_of_mem _ he)) (h (other, ws) (List.mem_cons_self ..)) hnew]
      simp only [List.map_cons, List.flatMap_cons, List.cons_append, List.append_assoc]
      exact members_next (hvalue _)

theorem elements_tokens (fields read : List Field) (ts : List Token) :
    elements (r.draft read) fields ((fields.map fun f => [r.token f]).flatMap (.comma :: ·) ++ .endArray :: ts) =
      .ok (r.draft (fields.reverse ++ read), ts) := by
  induction fields generalizing read with
  | nil => rfl
  | cons f fields ih =>
      simp only [List.map_cons, List.flatMap_cons, List.cons_append, List.nil_append, elements, draft_read]
      rw [List.reverse_cons, List.append_assoc]
      exact ih (f :: read)

theorem draft_nil : r.draft [] = {} := rfl

theorem order_object {entries : List (Option Field × List Token)} (h : ∀ e ∈ entries, r.MemberTokens e.1 e.2)
    (hf : (entries.filterMap Prod.fst).Perm Field.all) :
    order (.beginObject :: (separated .comma (entries.map Prod.snd) ++ [.endObject])) = .ok (r, []) := by
  cases entries with
  | nil => exact absurd hf.length_eq (by decide)
  | cons e entries =>
      obtain ⟨field, ms⟩ := e
      have hfields : ((field, ms) :: entries).filterMap Prod.fst = field.toList ++ entries.filterMap Prod.fst := by
        cases field <;> rfl
      rw [hfields] at hf
      have hnew : (field.toList ++ (entries.filterMap Prod.fst ++ [])).Nodup := by
        rw [List.append_nil, hf.nodup_iff]
        decide
      have hall (f : Field) : f ∈ (entries.filterMap Prod.fst).reverse ++ field.toList := by
        have : f ∈ field.toList ++ entries.filterMap Prod.fst := hf.mem_iff.mpr (by cases f <;> decide)
        simpa [or_comm] using this
      have hmembers :=
        members_tokens (fun e he => h e (List.mem_cons_of_mem _ he)) (h _ (List.mem_cons_self ..)) hnew []
      obtain ⟨name, vs, rfl, -⟩ := h (field, ms) (List.mem_cons_self ..)
      rw [draft_nil, List.append_nil] at hmembers
      simp only [List.map_cons, separated, List.append_assoc]
      simp only [List.cons_append] at hmembers ⊢
      simp [order, hmembers, draft_complete hall, bind, Except.bind, pure, Except.pure]

theorem order_array :
    order (.beginArray :: (separated .comma (Field.all.map fun f => [r.token f]) ++ [.endArray])) = .ok (r, []) := by
  have hall (f : Field) : f ∈ Field.all.tail.reverse ++ [.symbol] := by cases f <;> decide
  have htokens : separated .comma (Field.all.map fun f => [r.token f]) ++ [.endArray] = .string (some r.symbol) ::
      ((Field.all.tail.map fun f => [r.token f]).flatMap (.comma :: ·) ++ .endArray :: []) := rfl
  have hread (ts : List Token) : Draft.read {} .symbol (.string (some r.symbol) :: ts) = .ok (r.draft [.symbol], ts) :=
    draft_read .symbol [] ts
  have helements := elements_tokens (r := r) Field.all.tail [.symbol] []
  rw [htokens, order]
  · simp only [hread, helements, draft_complete hall, bind, Except.bind, pure, Except.pure]
  · rintro _ ⟨⟩

theorem decode_of_scans {text : String} {p : Padded} {ts : List Token} (ht : text.toList = p.text)
    (h : Scans p.core ts) (hr : order ts = .ok (r, [])) : OrderRequest.decode text = .ok r := by
  have htokens : tokens text.toList = ts := by
    have := h.padded [] delimited_nil
    rw [List.append_nil, tokens, List.append_nil] at this
    rw [ht, this]
  simp [OrderRequest.decode, whole, htokens, hr, bind, Except.bind]

theorem decode_object {text : String} (h : r.ObjectText text) : OrderRequest.decode text = .ok r := by
  obtain ⟨entries, p, hm, hf, hp, ht⟩ := h
  have hscan : ∀ e ∈ entries, ∃ ms, Scans e.2.text ms ∧ r.MemberTokens e.1 ms :=
    fun e he => scans_member (hm e he)
  choose! found hfound using hscan
  have hs : Scans p.core (.beginObject :: (separated .comma (entries.map found) ++ [.endObject])) := by
    rw [hp]
    exact (Scans.separated fun e he => (hfound e he).1).enclosed (by decide) (by decide) (nofun : Blanks [])
  have htokens : ∀ e ∈ entries.map fun e => (e.1, found e), r.MemberTokens e.1 e.2 := by
    intro e he
    obtain ⟨entry, hmem, rfl⟩ := List.mem_map.mp he
    exact (hfound entry hmem).2
  have horder := order_object htokens (by rwa [List.filterMap_map])
  rw [List.map_map] at horder
  exact decode_of_scans ht hs horder

theorem decode_array {text : String} (h : r.ArrayText text) : OrderRequest.decode text = .ok r := by
  obtain ⟨value, p, hv, hp, ht⟩ := h
  have hs : Scans p.core (.beginArray :: (separated .comma (Field.all.map fun f => [r.token f]) ++ [.endArray])) := by
    rw [hp]
    exact (Scans.separated fun f _ => (scans_field (hv f)).padded).enclosed (by decide) (by decide) (nofun : Blanks [])
  exact decode_of_scans ht hs order_array

end OrderBench
