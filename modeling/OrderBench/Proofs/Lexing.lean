import OrderBench.Proofs.Tokens
import Mathlib.Data.List.Chain
import Mathlib.Data.List.TakeWhile

/-!
A text is read as the tokens that it is made of, and as no others: what is scanned spells the token that it is
scanned as, and a sequence of tokens is found again in any of its texts. Only two numbers side by side would
run together.
-/
namespace OrderBench

open Json Token

/-! Strings. -/

theorem hexDigit_of_scanned {n : Nat} {c : Char} (h : hexDigit? c = some n) : HexDigit n c := by
  unfold hexDigit? at h
  rw [← Char.ofNat_toNat c]
  split at h
  · next hc =>
    obtain ⟨hlow, hhigh⟩ : 48 ≤ c.toNat ∧ c.toNat ≤ 57 := Char.isDigit_iff_toNat.mp hc
    cases h
    interval_cases c.toNat <;> exact .inl rfl
  · split at h
    · next hc =>
      obtain ⟨hlow, hhigh⟩ : 97 ≤ c.toNat ∧ c.toNat ≤ 102 := hc
      cases h
      interval_cases c.toNat <;> exact .inl rfl
    · split at h
      · next hc =>
        obtain ⟨hlow, hhigh⟩ : 65 ≤ c.toNat ∧ c.toNat ≤ 70 := hc
        cases h
        interval_cases c.toNat <;> exact .inr rfl
      · cases h

theorem Json.HexDigit.lt {n : Nat} {c : Char} (h : HexDigit n c) : n < 16 := by
  obtain h | h := h <;> exact (List.getElem?_eq_some_iff.mp h).1

theorem shortEscape_of_scanned {e c : Char} (h : escaped? e = some c) : (e, c) ∈ shortEscapes := by
  unfold escaped? at h
  split at h <;> cases h <;> decide

theorem spelled_of_scanned {read ps : List Piece} {cs rest : List Char} (h : scanPieces read cs = some (ps, rest)) :
    ∃ found body, Spelled found body ∧ cs = body ++ '"' :: rest ∧ ps = found.reverse ++ read := by
  fun_induction scanPieces read cs with
  | case1 read r =>
      cases h
      exact ⟨[], [], .nil, rfl, rfl⟩
  | case2 read a b c d r n hn ih =>
      obtain ⟨found, body, hs, rfl, rfl⟩ := ih h
      unfold hexUnit? at hn
      simp only [Option.bind_eq_bind, Option.bind_eq_some_iff, Option.pure_def, Option.some.injEq] at hn
      obtain ⟨i, hi, j, hj, k, hk, l, hl, rfl⟩ := hn
      have hp := PieceText.unit (hexDigit_of_scanned hi) (hexDigit_of_scanned hj) (hexDigit_of_scanned hk)
        (hexDigit_of_scanned hl)
      exact ⟨_, _, hs.cons hp, rfl, by simp⟩
  | case3 => cases h
  | case4 read e r _ c he ih =>
      obtain ⟨found, body, hs, rfl, rfl⟩ := ih h
      exact ⟨_, _, hs.cons (.short (shortEscape_of_scanned he)), rfl, by simp⟩
  | case5 => cases h
  | case6 => cases h
  | case7 read c r hq _ _ hc ih =>
      obtain ⟨found, body, hs, rfl, rfl⟩ := ih h
      rw [not_or] at hc
      exact ⟨_, _, hs.cons (.plain (Nat.le_of_not_lt hc.2) hq hc.1), rfl, by simp⟩
  | case8 => cases h

/-- UTF-16 units have four hexadecimal digits. -/
theorem unit_lt_of_spelled {ps : List Piece} {body : List Char} (h : Spelled ps body) :
    ∀ n, .unit n ∈ ps → n < 0x10000 := by
  induction h with
  | nil => simp
  | cons hp _ ih =>
      intro n hn
      obtain rfl | hn := List.mem_cons.mp hn
      · cases hp with
        | unit ha hb hc hd =>
            have := ha.lt
            have := hb.lt
            have := hc.lt
            have := hd.lt
            omega
      · exact ih n hn

theorem toNat_ofNat {n : Nat} (h : n < 0xD800 ∨ 0xDFFF < n ∧ n < 0x110000) : (Char.ofNat n).toNat = n := by
  rw [Char.ofNat, dif_pos h]
  rfl

theorem denotes_of_joined {text cs : List Char} {ps : List Piece} (h : joinPieces text ps = some cs)
    (hn : ∀ n, .unit n ∈ ps → n < 0x10000) {after : List Piece} (ha : Denotes after text) :
    Denotes (ps.reverse ++ after) cs := by
  -- the pieces are joined from the last one on, each before those that it precedes
  fun_induction joinPieces text ps generalizing after with
  | case1 text =>
      cases h
      exact ha
  | case2 text c ps ih =>
      rw [List.reverse_cons, List.append_assoc]
      exact ih h (fun n hm => hn n (List.mem_cons_of_mem _ hm)) (ha.char c)
  | case3 text low hl high ps hh ih =>
      have hcode : (Char.ofNat (0x10000 + (high - 0xD800) * 0x400 + (low - 0xDC00))).toNat =
          0x10000 + (high - 0xD800) * 0x400 + (low - 0xDC00) := toNat_ofNat (by omega)
      have hpair := Denotes.pair (by omega) (by omega) hcode ha
      rw [Nat.add_sub_cancel' hh.1, Nat.add_sub_cancel' hl.1] at hpair
      rw [List.reverse_cons, List.reverse_cons, List.append_assoc, List.append_assoc]
      exact ih h (fun n hm => hn n (List.mem_cons_of_mem _ (List.mem_cons_of_mem _ hm))) hpair
  | case4 => cases h
  | case5 => cases h
  | case6 => cases h
  | case7 text n ps hl hh ih =>
      have hlt := hn n (List.mem_cons_self ..)
      have hcode : (Char.ofNat n).toNat = n := toNat_ofNat (by omega)
      have hunit := ha.unit (Char.ofNat n)
      rw [hcode] at hunit
      rw [List.reverse_cons, List.append_assoc]
      exact ih h (fun n hm => hn n (List.mem_cons_of_mem _ hm)) hunit

theorem string_of_scanned {ps : List Piece} {cs rest text : List Char} (h : scanPieces [] cs = some (ps, rest))
    (hj : joinPieces [] ps = some text) :
    ∃ body, StringText (.ofList text) ('"' :: (body ++ ['"'])) ∧ cs = body ++ '"' :: rest := by
  obtain ⟨found, body, hs, rfl, hps⟩ := spelled_of_scanned h
  rw [List.append_nil] at hps
  subst hps
  have hd := denotes_of_joined hj (fun n hn => unit_lt_of_spelled hs n (List.mem_reverse.mp hn)) .nil
  rw [List.reverse_reverse, List.append_nil] at hd
  exact ⟨body, ⟨found, body, by rwa [String.toList_ofList], hs, rfl⟩, rfl⟩

/-! Numbers. -/

theorem digits_of_scanned {ds : List Nat} {cs rest : List Char} (h : scanDigits cs = (ds, rest)) (hne : ds ≠ []) :
    ∃ text, DigitText ds text ∧ cs = text ++ rest := by
  cases h
  have hd : ∀ c ∈ cs.takeWhile Char.isDigit, c.isDigit = true := fun c => List.mem_takeWhile_imp
  exact ⟨_, digitText_map ⟨by simpa using hne, hd⟩, List.takeWhile_append_dropWhile.symm⟩

theorem fraction_of_scanned {ds : List Nat} {cs rest : List Char} (h : scanFraction cs = some (ds, rest)) :
    ∃ fraction, FractionSpelled ds fraction ∧ cs = fraction ++ rest := by
  fun_cases scanFraction cs with
  | case1 => simp_all [scanFraction]
  | case2 r hne =>
      have hscan : scanDigits r = (ds, rest) := by simpa [scanFraction, hne] using h
      obtain ⟨text, ht, rfl⟩ := digits_of_scanned hscan (by rintro rfl; exact hne _ hscan)
      exact ⟨_, .digits ht, rfl⟩
  | case3 cs hne =>
      simp only [scanFraction, Option.some.injEq, Prod.mk.injEq] at h
      obtain ⟨rfl, rfl⟩ := h
      exact ⟨[], .none, rfl⟩

theorem sign_of_scanned {cs rest : List Char} {negative : Bool} (h : scanSign cs = (negative, rest)) :
    ∃ sign, (sign, negative) ∈ exponentSigns ∧ cs = sign ++ rest := by
  fun_cases scanSign cs <;> simp_all [scanSign, exponentSigns]

theorem exponent_of_scanned {e : Option (Bool × List Nat)} {cs rest : List Char}
    (h : scanExponent cs = some (e, rest)) : ∃ exponent, ExponentSpelled e exponent ∧ cs = exponent ++ rest := by
  cases cs with
  | nil =>
      cases h
      exact ⟨[], .none, rfl⟩
  | cons c cs =>
      rw [scanExponent] at h
      split at h
      · next hc =>
        cases hsign : scanSign cs with
        | mk negative r =>
            obtain ⟨sign, hs, rfl⟩ := sign_of_scanned hsign
            rw [hsign] at h
            dsimp only at h
            split at h
            · cases h
            · next hne hscan =>
              cases h
              obtain ⟨text, ht, rfl⟩ := digits_of_scanned hscan hne
              exact ⟨_, .digits hc hs ht, by simp⟩
      · cases h
        exact ⟨[], .none, rfl⟩

theorem number_of_scanned {negative : Bool} {l : Number.Literal} {cs rest : List Char}
    (h : scanNumber negative cs = some (l, rest)) :
    ∃ core, NumberSpelled l core ∧ (if negative then ['-'] else []) ++ cs = core ++ rest := by
  unfold scanNumber at h
  split at h
  · cases h
  · cases h
  · next whole r hne hzero hscan =>
    simp only [Option.bind_eq_bind, Option.bind_eq_some_iff, Option.pure_def, Option.some.injEq] at h
    obtain ⟨⟨ds, r1⟩, hf, ⟨e, r2⟩, he, hl⟩ := h
    dsimp only at he hl
    cases hl
    obtain ⟨text, hw, rfl⟩ := digits_of_scanned hscan hne
    obtain ⟨fraction, hfraction, rfl⟩ := fraction_of_scanned hf
    obtain ⟨exponent, hexponent, rfl⟩ := exponent_of_scanned he
    have hz : whole.head? = some 0 → whole = [0] := by
      intro hhead
      cases whole with
      | nil => cases hhead
      | cons d ds =>
          cases hhead
          cases ds with
          | nil => rfl
          | cons d ds => exact (hzero _ _ rfl).elim
    exact ⟨_, .parts hw hz hfraction hexponent, by simp⟩

/-! Tokens. -/

namespace Token

/-- Whether a reader that looks at values can read the token. -/
def Legible : Token → Prop
  | .invalid | .number none | .string none => False
  | _ => True

def isNumber : Token → Bool
  | .number _ => true
  | _ => false

end Token

theorem numeral_of_scanned {negative : Bool} {cs : List Char} (h : Legible (ofNumber (scanNumber negative cs)).1) :
    ∃ core, TokenText (ofNumber (scanNumber negative cs)).1 core ∧
      (if negative then ['-'] else []) ++ cs = core ++ (ofNumber (scanNumber negative cs)).2 := by
  cases hs : scanNumber negative cs with
  | none =>
      rw [hs] at h
      exact h.elim
  | some found =>
      obtain ⟨l, rest⟩ := found
      obtain ⟨core, hl, hcs⟩ := number_of_scanned hs
      rw [hs] at h
      cases hn : l.value? with
      | none =>
          simp only [ofNumber, hn] at h
          exact h.elim
      | some n => exact ⟨core, by simpa only [ofNumber, hn] using .number hl hn, hcs⟩

theorem literal_of_scanned {cs : List Char} (h : Legible (ofPieces (scanPieces [] cs)).1) :
    ∃ core, TokenText (ofPieces (scanPieces [] cs)).1 core ∧ '"' :: cs = core ++ (ofPieces (scanPieces [] cs)).2 := by
  cases hs : scanPieces [] cs with
  | none =>
      rw [hs] at h
      exact h.elim
  | some found =>
      obtain ⟨ps, rest⟩ := found
      rw [hs] at h
      cases hj : joinPieces [] ps with
      | none =>
          simp only [ofPieces, hj] at h
          exact h.elim
      | some text =>
          obtain ⟨body, hb, rfl⟩ := string_of_scanned hs hj
          exact ⟨_, by simpa only [ofPieces, hj] using .string hb, by simp [ofPieces]⟩

theorem text_of_scanned (c : Char) (r : List Char) :
    Legible (scan c r).1 → ∃ core, TokenText (scan c r).1 core ∧ c :: r = core ++ (scan c r).2 := by
  fun_cases scan c r with
  | case1 => exact fun _ => ⟨_, .mark (t := .beginArray) (by decide), rfl⟩
  | case2 => exact fun _ => ⟨_, .mark (t := .endArray) (by decide), rfl⟩
  | case3 => exact fun _ => ⟨_, .mark (t := .beginObject) (by decide), rfl⟩
  | case4 => exact fun _ => ⟨_, .mark (t := .endObject) (by decide), rfl⟩
  | case5 => exact fun _ => ⟨_, .mark (t := .comma) (by decide), rfl⟩
  | case6 => exact fun _ => ⟨_, .mark (t := .colon) (by decide), rfl⟩
  | case7 => exact fun _ => ⟨_, .null, rfl⟩
  | case8 => exact fun _ => ⟨_, .true, rfl⟩
  | case9 => exact fun _ => ⟨_, .false, rfl⟩
  | case10 => exact literal_of_scanned
  | case11 => exact numeral_of_scanned
  | case12 => exact numeral_of_scanned
  | case13 => exact False.elim

theorem blanks_nil : Blanks [] := nofun

theorem Json.Lexed.blank {ts : List Token} {cs : List Char} {c : Char} (h : Lexed ts cs) (hc : isBlank c = true) :
    Lexed ts (c :: cs) := by
  have hblanks {blanks : List Char} (hb : Blanks blanks) : Blanks (c :: blanks) := by
    intro d hd
    obtain rfl | hd := List.mem_cons.mp hd
    · simpa [isBlank, or_assoc] using hc
    · exact hb d hd
  cases h with
  | nil hb => exact .nil (hblanks hb)
  | cons hb ht h => exact .cons (hblanks hb) ht h

/-- A text without a token that is invalid or has no value is made of its tokens. -/
theorem lexed_tokens {cs : List Char} (h : ∀ t ∈ tokens cs, Legible t) : Lexed (tokens cs) cs := by
  fun_induction tokens cs with
  | case1 => exact .nil blanks_nil
  | case2 c r hc ih => exact (ih h).blank hc
  | case3 c r hc found ih =>
      obtain ⟨core, ht, hcs⟩ := text_of_scanned c r (h _ (List.mem_cons_self ..))
      have hrest := ih fun t hm => h t (List.mem_cons_of_mem _ hm)
      rw [hcs]
      exact hrest.cons blanks_nil ht

/-! Any text of a sequence of tokens. -/

/-- No two numbers are side by side. -/
def Apart (ts : List Token) : Prop := ts.IsChain fun t u => t.isNumber = true → u.isNumber = false

theorem Json.Lexed.delimited {ts : List Token} {cs : List Char} (h : Lexed ts cs)
    (hn : ∀ t ∈ ts.head?, t.isNumber = false) : Delimited cs := by
  cases h with
  | nil hb => simpa using delimited_nil.blanks hb
  | cons hb ht _ =>
      refine Delimited.blanks ?_ hb
      cases ht with
      | mark hm => exact delimited_mark hm _
      | number => cases hn _ rfl
      | string hs =>
          obtain ⟨_, _, _, _, rfl⟩ := hs
          rintro c ⟨⟩
          decide
      | _ =>
          rintro c ⟨⟩
          decide

theorem tokens_lexed {ts : List Token} {cs : List Char} (h : Lexed ts cs) (ha : Apart ts) : tokens cs = ts := by
  induction h with
  | nil hb => simpa [tokens] using tokens_blanks hb []
  | cons hb ht hr ih =>
      have ih := ih ha.tail
      rw [tokens_blanks hb]
      cases ht with
      | mark hm => rw [List.singleton_append, tokens_mark hm, ih]
      | number hl hn =>
          have hhead := List.isChain_cons.mp ha
          rw [tokens_numeral hl (hr.delimited fun t ht => hhead.1 t ht rfl), hn, ih]
      | string hs => rw [tokens_string hs, ih]
      | _ =>
          rw [← ih]
          exact tokens_cons rfl _

end OrderBench
