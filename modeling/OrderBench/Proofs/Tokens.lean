import OrderBench.Json.Spelling
import Mathlib.Tactic.IntervalCases

/-!
The tokens of JSON texts. Each literal of the grammar is one token, whatever follows that cannot extend it,
and blanks are none.
-/
namespace OrderBench

open Json Token

/-! Blanks and marks. -/

theorem tokens_blanks {blanks : List Char} (h : Blanks blanks) (rest : List Char) :
    tokens (blanks ++ rest) = tokens rest := by
  induction blanks with
  | nil => rfl
  | cons c blanks ih =>
      have hc : isBlank c = true := by
        obtain rfl | rfl | rfl | rfl := h c (List.mem_cons_self ..) <;> rfl
      rw [List.cons_append, tokens, if_pos hc]
      exact ih fun d hd => h d (List.mem_cons_of_mem _ hd)

theorem tokens_cons {c : Char} (h : isBlank c = false) (rest : List Char) :
    tokens (c :: rest) = (scan c rest).1 :: tokens (scan c rest).2 := by
  rw [tokens, if_neg (by simp [h])]

theorem tokens_mark {c : Char} {t : Token} (h : (c, t) ∈ marks) (rest : List Char) :
    tokens (c :: rest) = t :: tokens rest := by
  simp only [marks, List.mem_cons, Prod.mk.injEq, List.not_mem_nil, or_false] at h
  obtain ⟨rfl, rfl⟩ | ⟨rfl, rfl⟩ | ⟨rfl, rfl⟩ | ⟨rfl, rfl⟩ | ⟨rfl, rfl⟩ | ⟨rfl, rfl⟩ := h <;>
    exact tokens_cons rfl rest

/-! String literals. -/

theorem hexDigit?_eq {n : Nat} {c : Char} (h : HexDigit n c) : hexDigit? c = some n := by
  have hn : n < 16 := by
    obtain h | h := h <;> exact (List.getElem?_eq_some_iff.mp h).1
  interval_cases n <;> obtain h | h := h <;> cases h <;> rfl

theorem scanPieces_piece {p : Piece} {cs : List Char} (h : PieceText p cs) (read : List Piece) (rest : List Char) :
    scanPieces read (cs ++ rest) = scanPieces (p :: read) rest := by
  cases h with
  | @plain c hc hq hb =>
      have hlt : ¬(c = '\\' ∨ c.toNat < 0x20) := by
        rintro (rfl | hlt)
        · exact hb rfl
        · omega
      rw [List.singleton_append, scanPieces]
      · rw [if_neg hlt]
      · exact hq
      · intro _ _ _ _ _ he _
        exact hb he
      · intro _ _ he _
        exact hb he
  | short h =>
      simp only [shortEscapes, List.mem_cons, Prod.mk.injEq, List.not_mem_nil, or_false] at h
      obtain ⟨rfl, rfl⟩ | ⟨rfl, rfl⟩ | ⟨rfl, rfl⟩ | ⟨rfl, rfl⟩ | ⟨rfl, rfl⟩ | ⟨rfl, rfl⟩ | ⟨rfl, rfl⟩ |
        ⟨rfl, rfl⟩ := h <;> rfl
  | unit ha hb hc hd =>
      simp only [List.cons_append, List.nil_append, scanPieces, hexUnit?, hexDigit?_eq ha, hexDigit?_eq hb,
        hexDigit?_eq hc, hexDigit?_eq hd, Option.bind_eq_bind, Option.bind_some, Option.pure_def]

theorem scanPieces_spelled {ps : List Piece} {body : List Char} (h : Spelled ps body) (read : List Piece)
    (rest : List Char) : scanPieces read (body ++ '"' :: rest) = some (ps.reverse ++ read, rest) := by
  induction h generalizing read with
  | nil => rfl
  | cons hp _ ih => rw [List.append_assoc, scanPieces_piece hp, ih, List.reverse_cons, List.append_assoc]; rfl

theorem not_surrogate (c : Char) : ¬(0xD800 ≤ c.toNat ∧ c.toNat ≤ 0xDFFF) := by
  have : c.toNat < 0xD800 ∨ 0xDFFF < c.toNat ∧ c.toNat < 0x110000 := c.valid
  omega

theorem joinPieces_denotes {ps : List Piece} {cs : List Char} (h : Denotes ps cs) (text : List Char)
    (before : List Piece) : joinPieces text (ps.reverse ++ before) = joinPieces (cs ++ text) before := by
  -- the pieces are joined from the last one on
  induction h generalizing before with
  | nil => rfl
  | char c _ ih =>
      rw [List.reverse_cons, List.append_assoc, ih]
      rfl
  | unit c _ ih =>
      have hc := not_surrogate c
      rw [List.reverse_cons, List.append_assoc, ih, List.singleton_append, joinPieces.eq_def]
      dsimp only
      rw [if_neg (by omega), if_neg (by omega), Char.ofNat_toNat]
      rfl
  | @pair _ _ c high low hh hl hc _ ih =>
      have hcode : 0x10000 + (0xD800 + high - 0xD800) * 0x400 + (0xDC00 + low - 0xDC00) = c.toNat := by omega
      rw [List.reverse_cons, List.reverse_cons, List.append_assoc, List.append_assoc, ih, List.singleton_append,
        List.singleton_append, joinPieces, if_pos (by omega)]
      simp only [hcode, Char.ofNat_toNat]
      rw [if_pos (by omega)]
      rfl

theorem tokens_spelled {ps : List Piece} {body : List Char} (h : Spelled ps body) (rest : List Char) :
    tokens ('"' :: (body ++ ['"']) ++ rest) = .string ((joinPieces [] ps.reverse).map .ofList) :: tokens rest := by
  have hscan : scan '"' (body ++ '"' :: rest) = (.string ((joinPieces [] ps.reverse).map .ofList), rest) := by
    have := scanPieces_spelled h [] rest
    rw [List.append_nil] at this
    simp only [scan, this, ofPieces]
  rw [List.cons_append, List.append_assoc, List.singleton_append, tokens_cons rfl, hscan]

theorem tokens_literal {cs : List Char} (h : LiteralText cs) :
    ∃ o, ∀ rest, tokens (cs ++ rest) = .string o :: tokens rest := by
  obtain ⟨ps, body, hs, rfl⟩ := h
  exact ⟨_, tokens_spelled hs⟩

theorem tokens_string {s : String} {cs : List Char} (h : StringText s cs) (rest : List Char) :
    tokens (cs ++ rest) = .string (some s) :: tokens rest := by
  obtain ⟨ps, body, hd, hs, rfl⟩ := h
  have hjoin : joinPieces [] ps.reverse = some s.toList := by
    have := joinPieces_denotes hd [] []
    simpa [joinPieces] using this
  rw [tokens_spelled hs, hjoin, Option.map_some, String.ofList_toList]

/-! Number literals. -/

/-- What can follow a number literal without being a part of it. -/
def Delimited (rest : List Char) : Prop :=
  ∀ c ∈ rest.head?, c.isDigit = false ∧ c ≠ '.' ∧ c ≠ 'e' ∧ c ≠ 'E'

theorem delimited_nil : Delimited [] := nofun

theorem delimited_mark {c : Char} {t : Token} (h : (c, t) ∈ marks) (rest : List Char) : Delimited (c :: rest) := by
  simp only [marks, List.mem_cons, Prod.mk.injEq, List.not_mem_nil, or_false] at h
  obtain ⟨rfl, rfl⟩ | ⟨rfl, rfl⟩ | ⟨rfl, rfl⟩ | ⟨rfl, rfl⟩ | ⟨rfl, rfl⟩ | ⟨rfl, rfl⟩ := h <;>
    · rintro c ⟨⟩
      decide

theorem Delimited.blanks {blanks rest : List Char} (hr : Delimited rest) (hb : Blanks blanks) :
    Delimited (blanks ++ rest) := by
  cases blanks with
  | nil => exact hr
  | cons c blanks =>
      rintro d ⟨⟩
      obtain rfl | rfl | rfl | rfl := hb c (List.mem_cons_self ..) <;> decide

def digit (c : Char) : Nat := c.toNat - '0'.toNat

theorem digit_lt {c : Char} (h : c.isDigit = true) : digit c < 10 := by
  have hb : '0'.toNat ≤ c.toNat ∧ c.toNat ≤ '9'.toNat := Char.isDigit_iff_toNat.mp h
  have h0 : '0'.toNat = 48 := rfl
  have h9 : '9'.toNat = 57 := rfl
  unfold digit
  omega

theorem digitChar_digit {c : Char} (h : c.isDigit = true) : Nat.digitChar (digit c) = c := by
  have hb : '0'.toNat ≤ c.toNat := (Char.isDigit_iff_toNat.mp h).1
  have h0 : '0'.toNat = 48 := rfl
  apply Char.toNat_inj.mp
  rw [Nat.toNat_digitChar_of_lt_ten (digit_lt h)]
  unfold digit
  omega

theorem isDigit_digitChar {d : Nat} (h : d < 10) : (Nat.digitChar d).isDigit = true := by
  interval_cases d <;> rfl

theorem digit_digitChar {d : Nat} (h : d < 10) : digit (Nat.digitChar d) = d := by
  interval_cases d <;> rfl

theorem Json.DigitText.digits {ds : List Nat} {cs : List Char} (h : DigitText ds cs) : Digits cs := by
  obtain ⟨hne, hd, rfl⟩ := h
  refine ⟨by simpa using hne, ?_⟩
  intro c hc
  obtain ⟨d, hm, rfl⟩ := List.mem_map.mp hc
  exact isDigit_digitChar (hd d hm)

theorem Json.DigitText.map_digit {ds : List Nat} {cs : List Char} (h : DigitText ds cs) : cs.map digit = ds := by
  obtain ⟨-, hd, rfl⟩ := h
  have hself : ∀ d ∈ ds, (digit ∘ Nat.digitChar) d = id d := fun d hm => digit_digitChar (hd d hm)
  rw [List.map_map, List.map_congr_left hself, List.map_id]

theorem digitText_map {cs : List Char} (h : Digits cs) : DigitText (cs.map digit) cs := by
  refine ⟨by simpa using h.1, ?_, ?_⟩
  · intro d hd
    obtain ⟨c, hc, rfl⟩ := List.mem_map.mp hd
    exact digit_lt (h.2 c hc)
  · have hself : ∀ c ∈ cs, (Nat.digitChar ∘ digit) c = id c := fun c hc => digitChar_digit (h.2 c hc)
    rw [List.map_map, List.map_congr_left hself, List.map_id]

/-! The scanners of its parts. -/

theorem scanDigits_append {ds : List Nat} {cs rest : List Char} (h : DigitText ds cs)
    (hr : ∀ c ∈ rest.head?, c.isDigit = false) : scanDigits (cs ++ rest) = (ds, rest) := by
  have htake : rest.takeWhile Char.isDigit = [] ∧ rest.dropWhile Char.isDigit = rest := by
    cases rest with
    | nil => exact ⟨rfl, rfl⟩
    | cons c rest =>
        have hc := hr c rfl
        simp [hc]
  rw [scanDigits, List.takeWhile_append_of_pos h.digits.2, List.dropWhile_append_of_pos h.digits.2, htake.1, htake.2,
    List.append_nil]
  exact congrArg (·, rest) h.map_digit

theorem scanFraction_append {ds : List Nat} {fraction rest : List Char} (h : FractionSpelled ds fraction)
    (hr : ∀ c ∈ rest.head?, c.isDigit = false ∧ c ≠ '.') : scanFraction (fraction ++ rest) = some (ds, rest) := by
  cases h with
  | none =>
      rw [List.nil_append, scanFraction]
      rintro r rfl
      exact (hr '.' rfl).2 rfl
  | digits h =>
      rw [List.cons_append, scanFraction, scanDigits_append h fun c hc => (hr c hc).1]
      cases ds with
      | nil => exact absurd rfl h.1
      | cons d ds => rfl

theorem scanSign_append {sign cs : List Char} {negative : Bool} {ds : List Nat}
    (hs : (sign, negative) ∈ exponentSigns) (h : DigitText ds cs) (rest : List Char) :
    scanSign (sign ++ (cs ++ rest)) = (negative, cs ++ rest) := by
  simp only [exponentSigns, List.mem_cons, Prod.mk.injEq, List.not_mem_nil, or_false] at hs
  obtain ⟨rfl, rfl⟩ | ⟨rfl, rfl⟩ | ⟨rfl, rfl⟩ := hs
  · obtain ⟨hne, hd⟩ := h.digits
    cases cs with
    | nil => exact absurd rfl hne
    | cons c cs =>
        have hdigit := hd c (List.mem_cons_self ..)
        rw [List.nil_append, List.cons_append, scanSign] <;>
          · rintro _ ⟨⟩
            simp at hdigit
  · rfl
  · rfl

theorem scanExponent_append {e : Option (Bool × List Nat)} {exponent rest : List Char}
    (h : ExponentSpelled e exponent) (hr : ∀ c ∈ rest.head?, c.isDigit = false ∧ c ≠ 'e' ∧ c ≠ 'E') :
    scanExponent (exponent ++ rest) = some (e, rest) := by
  cases h with
  | none =>
      cases rest with
      | nil => rfl
      | cons c rest =>
          have hc := hr c rfl
          simp [scanExponent, hc.2.1, hc.2.2]
  | @digits e sign cs negative ds he hs h =>
      rw [List.cons_append, List.append_assoc, scanExponent, if_pos he, scanSign_append hs h]
      dsimp only
      rw [scanDigits_append h fun c hc => (hr c hc).1]
      cases ds with
      | nil => exact absurd rfl h.1
      | cons d ds => rfl

theorem Delimited.append {e : Option (Bool × List Nat)} {exponent rest : List Char} (h : ExponentSpelled e exponent)
    (hr : Delimited rest) : ∀ c ∈ (exponent ++ rest).head?, c.isDigit = false ∧ c ≠ '.' := by
  cases h with
  | none => exact fun c hc => ⟨(hr c hc).1, (hr c hc).2.1⟩
  | digits he =>
      rintro c ⟨⟩
      obtain rfl | rfl := he <;> decide

theorem head_fraction {ds : List Nat} {fraction rest : List Char} (h : FractionSpelled ds fraction)
    (hr : ∀ c ∈ rest.head?, c.isDigit = false ∧ c ≠ '.') :
    ∀ c ∈ (fraction ++ rest).head?, c.isDigit = false := by
  cases h with
  | none => exact fun c hc => (hr c hc).1
  | digits =>
      rintro c ⟨⟩
      rfl

theorem scanNumber_append {l : Number.Literal} {whole fraction exponent rest : List Char}
    (hw : DigitText l.whole whole) (hz : l.whole.head? = some 0 → l.whole = [0])
    (hf : FractionSpelled l.fraction fraction) (he : ExponentSpelled l.exponent exponent) (hr : Delimited rest) :
    scanNumber l.negative (whole ++ (fraction ++ (exponent ++ rest))) = some (l, rest) := by
  have hrest := hr.append he
  rw [scanNumber, scanDigits_append hw (head_fraction hf hrest)]
  split
  · next h =>
    rw [Prod.mk.injEq] at h
    exact absurd h.1 hw.1
  · next h =>
    -- a zero before other digits is none of the grammar
    rw [Prod.mk.injEq] at h
    rw [h.1] at hz
    cases hz rfl
  · next h =>
    cases h
    simp [scanFraction_append hf hrest, scanExponent_append he fun c hc => ⟨(hr c hc).1, (hr c hc).2.2⟩]

theorem scan_digit {c : Char} (h : c.isDigit = true) (rest : List Char) :
    scan c rest = ofNumber (scanNumber false (c :: rest)) := by
  fun_cases scan c rest <;> simp_all

theorem isBlank_digit {c : Char} (h : c.isDigit = true) : isBlank c = false := by
  cases hb : isBlank c with
  | false => rfl
  | true =>
      simp only [isBlank, Bool.or_eq_true, beq_iff_eq] at hb
      obtain ((rfl | rfl) | rfl) | rfl := hb <;> simp at h

theorem tokens_digits {whole : List Char} (hw : Digits whole) (rest : List Char) :
    tokens (whole ++ rest) = (ofNumber (scanNumber false (whole ++ rest))).1 ::
      tokens (ofNumber (scanNumber false (whole ++ rest))).2 := by
  obtain ⟨hne, hd⟩ := hw
  cases whole with
  | nil => exact absurd rfl hne
  | cons c cs =>
      have hc := hd c (List.mem_cons_self ..)
      rw [List.cons_append, tokens_cons (isBlank_digit hc), scan_digit hc]

theorem tokens_minus (rest : List Char) :
    tokens ('-' :: rest) = (ofNumber (scanNumber true rest)).1 :: tokens (ofNumber (scanNumber true rest)).2 := by
  rw [tokens_cons rfl]
  rfl

theorem tokens_numeral {l : Number.Literal} {cs rest : List Char} (h : NumberSpelled l cs) (hr : Delimited rest) :
    tokens (cs ++ rest) = .number l.value? :: tokens rest := by
  obtain ⟨hw, hz, hf, he⟩ := h
  have hscan := scanNumber_append hw hz hf he hr
  cases hn : l.negative <;> simp only [hn, if_true, Bool.false_eq_true, if_false, List.nil_append, List.cons_append,
    List.append_assoc] at hscan ⊢
  · rw [tokens_digits hw.digits, hscan, ofNumber]
  · rw [tokens_minus, hscan, ofNumber]

/-! Texts of the grammar are spelled by literals. -/

theorem eq_zero_of_digit {c : Char} (h : c.isDigit = true) (hz : digit c = 0) : c = '0' := by
  rw [← digitChar_digit h, hz]
  rfl

theorem number_spelled {cs : List Char} (h : NumberText cs) : ∃ l, NumberSpelled l cs := by
  obtain ⟨sign, whole, fraction, exponent, hs, ⟨hw, hz⟩, hf, he, rfl⟩ := h
  have hfraction : ∃ ds, FractionSpelled ds fraction := by
    obtain rfl | ⟨digits, hd, rfl⟩ := hf
    · exact ⟨[], .none⟩
    · exact ⟨_, .digits (digitText_map hd)⟩
  have hexponent : ∃ e, ExponentSpelled e exponent := by
    obtain rfl | ⟨e, sign, digits, he, rfl | rfl | rfl, hd, rfl⟩ := he
    · exact ⟨none, .none⟩
    · exact ⟨_, .digits he (show ([], false) ∈ exponentSigns by decide) (digitText_map hd)⟩
    · exact ⟨_, .digits he (show (['+'], false) ∈ exponentSigns by decide) (digitText_map hd)⟩
    · exact ⟨_, .digits he (show (['-'], true) ∈ exponentSigns by decide) (digitText_map hd)⟩
  have hzero : (whole.map digit).head? = some 0 → whole.map digit = [0] := by
    intro hhead
    cases whole with
    | nil => cases hhead
    | cons c cs =>
        have hc := eq_zero_of_digit (hw.2 c (List.mem_cons_self ..)) (Option.some.inj hhead)
        rw [hz (congrArg some hc)]
        rfl
  obtain ⟨ds, hds⟩ := hfraction
  obtain ⟨e, hes⟩ := hexponent
  obtain rfl | rfl := hs
  · exact ⟨⟨false, _, ds, e⟩, .parts (digitText_map hw) hzero hds hes⟩
  · exact ⟨⟨true, _, ds, e⟩, .parts (digitText_map hw) hzero hds hes⟩

theorem tokens_number {cs : List Char} (h : NumberText cs) :
    ∃ o, ∀ rest, Delimited rest → tokens (cs ++ rest) = .number o :: tokens rest := by
  obtain ⟨l, hl⟩ := number_spelled h
  exact ⟨l.value?, fun rest hr => tokens_numeral hl hr⟩

/-! Integers. -/

theorem ofDigits_toDigits (n : Nat) : Number.ofDigits ((Nat.toDigits 10 n).map digit) = n := by
  rw [Number.ofDigits, List.foldl_map]
  exact Nat.ofDigitChars_ten_toDigits

theorem head_toDigits {n : Nat} (h : (Nat.toDigits 10 n).head? = some '0') : n = 0 := by
  induction n using Nat.strongRecOn with
  | ind n ih =>
      by_cases hn : n < 10
      · rw [Nat.toDigits_of_lt_base hn, List.head?_cons, Option.some.injEq] at h
        exact Nat.zero_eq_digitChar.mp h.symm
      · -- the leading digit is that of a tenth of the number
        rw [Nat.toDigits_of_base_le (by decide) (Nat.le_of_not_lt hn), List.head?_append] at h
        have hhead := List.head?_eq_some_head (Nat.toDigits_ne_nil (n := n / 10) (b := 10))
        rw [hhead, Option.some_or, ← hhead] at h
        have := ih (n / 10) (by omega) h
        omega

theorem digits_toDigits (n : Nat) : Digits (Nat.toDigits 10 n) :=
  ⟨Nat.toDigits_ne_nil, fun _ => Nat.isDigit_of_mem_toDigits (by decide) (by decide)⟩

/-- The literal of a whole number. -/
def integerLiteral (n : Int) : Number.Literal := ⟨n < 0, (Nat.toDigits 10 n.natAbs).map digit, [], none⟩

theorem integer_spelled (n : Int) : NumberSpelled (integerLiteral n) (toString n).toList := by
  have hzero (k : Nat) (h : ((Nat.toDigits 10 k).map digit).head? = some 0) : (Nat.toDigits 10 k).map digit = [0] := by
    rw [List.head?_map, Option.map_eq_some_iff] at h
    obtain ⟨c, hc, hz⟩ := h
    obtain rfl := eq_zero_of_digit ((digits_toDigits k).2 c (List.mem_of_mem_head? hc)) hz
    rw [head_toDigits hc]
    rfl
  have hparts := NumberSpelled.parts (l := integerLiteral n) (digitText_map (digits_toDigits n.natAbs)) (hzero _)
    .none .none
  rw [List.append_nil, List.append_nil] at hparts
  cases n with
  | ofNat n =>
      have htext : (toString (Int.ofNat n)).toList = Nat.toDigits 10 n := Nat.toList_repr
      rw [htext]
      exact hparts
  | negSucc n =>
      have htext : (toString (Int.negSucc n)).toList = '-' :: Nat.toDigits 10 (n + 1) := by
        change ("-" ++ Nat.repr (n + 1)).toList = _
        rw [String.toList_append, Nat.toList_repr]
        rfl
      rw [htext]
      rwa [if_pos (show (integerLiteral (Int.negSucc n)).negative = true from decide_eq_true (by omega))] at hparts

theorem integerLiteral_value {n : Int} (hn : Number.Fits n) : (integerLiteral n).value? = some (.integer n) := by
  have hvalue : (if (decide (n < 0)) = true then -(n.natAbs : Int) else n.natAbs) = n := by
    by_cases h : n < 0
    · rw [if_pos (decide_eq_true h)]
      omega
    · rw [if_neg (by simpa using h)]
      omega
  have hzero : ¬(decide (n < 0) = true ∧ n = 0) := by
    rintro ⟨h, rfl⟩
    cases h
  simp only [Number.Literal.value?, integerLiteral, ofDigits_toDigits, hvalue]
  rw [if_pos ⟨trivial, trivial, hn, hzero⟩]

theorem tokens_integer {n : Int} (hn : Number.Fits n) {rest : List Char} (hr : Delimited rest) :
    tokens ((toString n).toList ++ rest) = .number (some (.integer n)) :: tokens rest := by
  rw [tokens_numeral (integer_spelled n) hr, integerLiteral_value hn]

end OrderBench
