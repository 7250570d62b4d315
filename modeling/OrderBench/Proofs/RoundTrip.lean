import OrderBench.Proofs.OrderText

/-!
What an order is written as is read back as that order. The written text escapes only where it has to, and is
one of the many texts that are read as the order.
-/
namespace OrderBench

open Json Token Decode

/-! Writing. -/

theorem hexDigit_spelled {n : Nat} (h : n < 16) : HexDigit n (Json.hexDigit n) := by
  interval_cases n <;> exact .inl rfl

theorem escape_piece (c : Char) : ∃ p, PieceText p (escape c) ∧ (p = .char c ∨ p = .unit c.toNat) := by
  fun_cases escape c with
  | case8 c hq hb _ _ _ _ _ hc =>
      have hcode : ((0 * 16 + 0) * 16 + c.toNat / 16) * 16 + c.toNat % 16 = c.toNat := by omega
      have hzero : HexDigit 0 '0' := .inl rfl
      have hhigh := hexDigit_spelled (by omega : c.toNat / 16 < 16)
      have hlow := hexDigit_spelled (by omega : c.toNat % 16 < 16)
      exact ⟨_, .unit hzero hzero hhigh hlow, .inr (congrArg _ hcode)⟩
  | case9 c hq hb _ _ _ _ _ hc => exact ⟨_, .plain (Nat.le_of_not_lt hc) hq hb, .inl rfl⟩
  | _ => exact ⟨_, .short (by decide), .inl rfl⟩

theorem escape_pieces (cs : List Char) : ∃ ps, Denotes ps cs ∧ Spelled ps (cs.flatMap escape) := by
  induction cs with
  | nil => exact ⟨[], .nil, .nil⟩
  | cons c cs ih =>
      obtain ⟨ps, hd, hs⟩ := ih
      obtain ⟨p, hp, rfl | rfl⟩ := escape_piece c
      · exact ⟨_, .char c hd, .cons hp hs⟩
      · exact ⟨_, .unit c hd, .cons hp hs⟩

theorem quote_string (s : String) : StringText s (quote s).toList := by
  obtain ⟨ps, hd, hs⟩ := escape_pieces s.toList
  exact ⟨ps, _, hd, hs, String.toList_ofList⟩

theorem intercalate_comma (parts : List String) :
    (",".intercalate parts).toList = separated ',' (parts.map String.toList) := by
  rw [String.toList_intercalate]
  cases parts with
  | nil => rfl
  | cons part parts =>
      induction parts generalizing part with
      | nil => simp [separated]
      | cons next parts ih =>
          rw [List.map_cons, List.map_cons, List.intercalate_cons_cons, ← List.map_cons, ih]
          simp [separated]

theorem memberTexts_map {α : Type} (items : List α) (name : α → String) (value : α → Json) :
    memberTexts (items.map fun a => (name a, value a)) =
      items.map fun a => quote (name a) ++ ":" ++ (value a).text := by
  induction items with
  | nil => rw [List.map_nil, List.map_nil, memberTexts]
  | cons a items ih => rw [List.map_cons, List.map_cons, memberTexts, ih]

/-- A text with no blanks around it. -/
def Json.Padded.bare (core : List Char) : Padded := ⟨[], core, [], nofun, nofun⟩

@[simp] theorem Json.Padded.core_bare (core : List Char) : (bare core).core = core := rfl

@[simp] theorem Json.Padded.text_bare (core : List Char) : (bare core).text = core := List.append_nil _

namespace OrderRequest

variable (r : OrderRequest)

def value : Field → Json
  | .symbol => .string r.symbol
  | .orderType => .string (word r.orderType)
  | .side => .string (word r.side)
  | .price => .number (.integer r.price.toInt)
  | .quantity => .number (.integer r.quantity.toInt)
  | .timeInForce => .string (word r.timeInForce)

def member (f : Field) : Member := ⟨.bare (quote f.name).toList, .bare (r.value f).text.toList⟩

theorem member_text (f : Field) : (r.member f).text = (quote f.name ++ ":" ++ (r.value f).text).toList := by
  simp only [Member.text, member, Padded.text_bare, String.toList_append, List.append_assoc]
  rfl

theorem value_text (f : Field) : r.FieldText f (r.value f).text.toList := by
  cases f with
  | symbol | orderType | side | timeInForce =>
      simp only [value, Json.text, FieldText]
      exact quote_string _
  | price | quantity =>
      simp only [value, Json.text, FieldText]
      rfl

variable {r} in
theorem member_field {f : Field} {value : Padded} (h : r.FieldText f value.core) :
    r.MemberText (some f) ⟨.bare (quote f.name).toList, value⟩ := by
  refine .field ?_ h
  simp only [Padded.core_bare]
  exact quote_string f.name

theorem encode_object : r.ObjectText r.encode := by
  refine ⟨Field.all.map fun f => (some f, r.member f), .bare r.encode.toList, ?_, ?_, ?_,
    (Padded.text_bare _).symm⟩
  · intro e he
    obtain ⟨f, -, rfl⟩ := List.mem_map.mp he
    exact member_field (r.value_text f)
  · rfl
  · have hmembers : r.toJson = .object (Field.all.map fun f => (f.name, r.value f)) := rfl
    simp only [encode, hmembers, Json.text, memberTexts_map, Padded.bare, String.toList_append, intercalate_comma,
      List.map_map, Function.comp_def, member_text]
    rfl

end OrderRequest

/-- An order is read from what it is written as, and from each text that spells it: an object with its members
in any order among any others, or the array of its values. -/
theorem decode_encode (r : OrderRequest) :
    OrderRequest.decode r.encode = .ok r ∧
    (∀ text : String, r.ObjectText text → OrderRequest.decode text = .ok r) ∧
    ∀ text : String, r.ArrayText text → OrderRequest.decode text = .ok r :=
  ⟨decode_object r.encode_object, fun _ => decode_object, fun _ => decode_array⟩

/-! Texts of strings and values that are written otherwise. -/

theorem surrogates_string : StringText "😀" "\"\\ud83D\\uDE00\"".toList := by
  have hd : HexDigit 13 'd' ∧ HexDigit 13 'D' := ⟨.inl rfl, .inr rfl⟩
  have hdenotes : Denotes [.unit 0xD83D, .unit 0xDE00] ['😀'] :=
    @Denotes.pair [] [] '😀' 0x3D 0x200 (by decide) (by decide) (by decide) .nil
  have hspelled : Spelled [.unit 0xD83D, .unit 0xDE00] "\\ud83D\\uDE00".toList :=
    .cons (.unit (i := 13) (j := 8) (k := 3) (l := 13) hd.1 (.inl rfl) (.inl rfl) hd.2)
      (.cons (.unit (i := 13) (j := 14) (k := 0) (l := 0) hd.2 (.inr rfl) (.inl rfl) (.inl rfl)) .nil)
  exact ⟨_, _, hdenotes, hspelled, rfl⟩

theorem unit_string : StringText "SELL" "\"\\u0053ELL\"".toList := by
  have hplain {c : Char} (h : 0x20 ≤ c.toNat ∧ c ≠ '"' ∧ c ≠ '\\') : PieceText (.char c) [c] :=
    .plain h.1 h.2.1 h.2.2
  have hdenotes : Denotes [.unit 0x53, .char 'E', .char 'L', .char 'L'] ['S', 'E', 'L', 'L'] :=
    .unit 'S' (.char 'E' (.char 'L' (.char 'L' .nil)))
  have hspelled : Spelled [.unit 0x53, .char 'E', .char 'L', .char 'L'] "\\u0053ELL".toList :=
    .cons (.unit (i := 0) (j := 0) (k := 5) (l := 3) (.inl rfl) (.inl rfl) (.inl rfl) (.inl rfl))
      (.cons (hplain (by decide)) (.cons (hplain (by decide)) (.cons (hplain (by decide)) .nil)))
  exact ⟨_, _, hdenotes, hspelled, rfl⟩

theorem blanks_space : Blanks [' '] := by simp [Blanks]

/-- A number beyond all that can be stored, and an empty object. -/
theorem nested_value : ValueText "[1e999, \x7b\x7d ]".toList := by
  have hnumber : NumberText ['1', 'e', '9', '9', '9'] :=
    ⟨[], ['1'], [], ['e', '9', '9', '9'], .inl rfl, ⟨⟨by simp, by simp⟩, by simp⟩, .inl rfl,
      .inr ⟨'e', [], ['9', '9', '9'], .inl rfl, .inl rfl, ⟨by simp, by simp⟩, rfl⟩, rfl⟩
  have hobject : ValueText ['{', '}'] := @ValueText.object [] [] nofun nofun nofun
  let items : List Padded :=
    [.bare ['1', 'e', '9', '9', '9'], ⟨[' '], ['{', '}'], [' '], blanks_space, blanks_space⟩]
  refine @ValueText.array [] items nofun ?_
  simp only [items, List.forall_mem_cons]
  exact ⟨.number hnumber, hobject, nofun⟩

/-- An order whose symbol is written as a pair of surrogates, with a member among its own that is skipped. -/
theorem decode_encode_of_escapes :
    let r : OrderRequest := ⟨"😀", .limit, .sell, -5, 9223372036854775807, .goodTillCancelled⟩
    OrderRequest.decode r.encode = .ok r ∧
      OrderRequest.decode (" \x7b\"quantity\":9223372036854775807,\"note\" : [1e999, \x7b\x7d ] ," ++
        "\"orderSide\": \"\\u0053ELL\" ,\"tifType\":\"GTC\",\"price\":-5," ++
        "\"symbol\":\"\\ud83D\\uDE00\",\"orderType\":\"LIMIT\"\x7d\n") = .ok r ∧
      OrderRequest.decode "[\"\\ud83D\\uDE00\",\"LIMIT\", \"\\u0053ELL\" ,-5,9223372036854775807,\"GTC\"]" = .ok r := by
  intro r
  let value : Field → Padded
    | .symbol => .bare "\"\\ud83D\\uDE00\"".toList
    | .orderType => .bare (quote "LIMIT").toList
    | .side => ⟨[' '], "\"\\u0053ELL\"".toList, [' '], blanks_space, blanks_space⟩
    | .price => .bare "-5".toList
    | .quantity => .bare "9223372036854775807".toList
    | .timeInForce => .bare (quote "GTC").toList
  have hvalue (f : Field) : r.FieldText f (value f).core := by
    cases f with
    | symbol => exact surrogates_string
    | orderType => exact quote_string "LIMIT"
    | side => exact unit_string
    | price => rfl
    | quantity => exact (by decide : "9223372036854775807".toList = (toString r.quantity.toInt).toList)
    | timeInForce => exact quote_string "GTC"
  let own (f : Field) : Option Field × Member := (some f, ⟨.bare (quote f.name).toList, value f⟩)
  have hown (f : Field) : r.MemberText (own f).1 (own f).2 := OrderRequest.member_field (hvalue f)
  let note : Member := ⟨⟨[], (quote "note").toList, [' '], nofun, blanks_space⟩,
    ⟨[' '], "[1e999, \x7b\x7d ]".toList, [' '], blanks_space, blanks_space⟩⟩
  have hnote : r.MemberText none note := .other (quote_string "note") (by intro f; cases f <;> decide) nested_value
  obtain ⟨hencode, hobjects, harrays⟩ := decode_encode r
  refine ⟨hencode, ?_, ?_⟩
  · apply hobjects
    refine ⟨[own .quantity, (none, note), own .side, own .timeInForce, own .price, own .symbol, own .orderType],
      ⟨[' '], _, ['\n'], blanks_space, by simp [Blanks]⟩, ?_, ?_, rfl, ?_⟩
    · simp only [List.forall_mem_cons]
      exact ⟨hown _, hnote, hown _, hown _, hown _, hown _, hown _, nofun⟩
    · exact (by decide : [Field.quantity, .side, .timeInForce, .price, .symbol, .orderType].Perm Field.all)
    · simp [note, own, value, Field.name, Padded.text, separated, Member.text, Padded.bare, quote, escape]
  · apply harrays
    refine ⟨value, .bare _, hvalue, rfl, ?_⟩
    simp [value, Field.all, Padded.text, separated, Padded.bare, quote, escape]

end OrderBench
