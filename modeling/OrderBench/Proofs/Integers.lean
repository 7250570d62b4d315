import OrderBench.Json.Grammar
import OrderBench.Number.Integer
import OrderBench.Fault
import OrderBench.Proofs.Results

/-!
Which texts are integers: digits, of a count with or without a plus, of a signed integer with or without a sign,
as many as there may be, of a number within the limits.
-/
namespace OrderBench

open Json (Digits)

/-- A text of a count of 64 bits. -/
def CountText (text : String) (n : Nat) : Prop :=
  ∃ sign digits, (sign = [] ∨ sign = ['+']) ∧ Digits digits ∧ text.toList = sign ++ digits ∧
    n = Nat.ofDigitChars 10 digits 0 ∧ n ≤ maxCount

/-- A text of a signed integer of 64 bits. -/
def Int64Text (text : String) (n : Int64) : Prop :=
  ∃ sign digits, Digits digits ∧ text.toList = sign ++ digits ∧
    ((sign = [] ∨ sign = ['+']) ∧ n.toInt = Nat.ofDigitChars 10 digits 0 ∨
      sign = ['-'] ∧ n.toInt = -(Nat.ofDigitChars 10 digits 0 : Int))

theorem le_ofDigitChars (cs : List Char) (n : Nat) : n ≤ Nat.ofDigitChars 10 cs n := by
  induction cs generalizing n with
  | nil => exact Nat.le_refl n
  | cons c cs ih =>
      rw [Nat.ofDigitChars_cons]
      refine Nat.le_trans ?_ (ih _)
      omega

theorem readDigits_eq_ok_iff {limit n m : Nat} {excess : IntegerFault} {cs : List Char} (hn : n ≤ limit) :
    readDigits limit excess n cs = .ok m ↔
      (∀ c ∈ cs, c.isDigit = true) ∧ m = Nat.ofDigitChars 10 cs n ∧ m ≤ limit := by
  induction cs generalizing n with
  | nil =>
      simp only [readDigits, Except.ok.injEq, List.not_mem_nil, false_implies, implies_true, true_and]
      constructor
      · rintro rfl
        exact ⟨rfl, hn⟩
      · rintro ⟨rfl, -⟩
        rfl
  | cons c cs ih =>
      rw [readDigits, Nat.ofDigitChars_cons, List.forall_mem_cons]
      by_cases hc : c.isDigit = true
      · simp only [hc, Bool.not_true, Bool.false_eq_true, if_false, true_and]
        split
        · next hlimit =>
          -- digits that follow make the number no less
          constructor
          · nofun
          · rintro ⟨-, rfl, hm⟩
            exact absurd (Nat.lt_of_lt_of_le hlimit (le_ofDigitChars cs _)) (Nat.not_lt_of_le hm)
        · next hlimit => exact ih (Nat.le_of_not_lt hlimit)
      · simp [hc]

theorem Json.Digits.head {c : Char} {cs : List Char} (h : Digits (c :: cs)) : c ≠ '+' ∧ c ≠ '-' := by
  have hc := h.2 c (List.mem_cons_self ..)
  constructor <;> rintro rfl <;> cases hc

theorem readCount_eq_ok_iff {text : String} {n : Nat} : readCount maxCount text = .ok n ↔ CountText text n := by
  constructor
  · intro h
    unfold readCount at h
    split at h
    · cases h
    · cases h
    · next cs hne htext =>
      obtain ⟨hd, hn, hle⟩ := (readDigits_eq_ok_iff (Nat.zero_le _)).mp h
      exact ⟨['+'], cs, .inr rfl, ⟨hne, hd⟩, htext, hn, hle⟩
    · next hne _ _ =>
      obtain ⟨hd, hn, hle⟩ := (readDigits_eq_ok_iff (Nat.zero_le _)).mp h
      exact ⟨[], text.toList, .inl rfl, ⟨hne, hd⟩, rfl, hn, hle⟩
  · rintro ⟨sign, digits, hs, hd, htext, hn, hle⟩
    have hread : readDigits maxCount .tooLarge 0 digits = .ok n :=
      (readDigits_eq_ok_iff (Nat.zero_le _)).mpr ⟨hd.2, hn, hle⟩
    obtain ⟨c, cs, rfl⟩ := List.exists_cons_of_ne_nil hd.1
    rw [readCount, htext]
    obtain rfl | rfl := hs
    · rw [List.nil_append]
      split
      · next h => cases h
      · next h => exact absurd (List.cons.inj h).1 hd.head.1
      · next h => exact absurd (List.cons.inj h).1 hd.head.1
      · exact hread
    · exact hread

theorem signed_eq_ok_iff {limit : Nat} {excess : IntegerFault} {cs : List Char} {f : Int → Int64} {n : Int64} :
    (readDigits limit excess 0 cs >>= fun m => pure (m : Int)).map f = .ok n ↔
      (∀ c ∈ cs, c.isDigit = true) ∧ Nat.ofDigitChars 10 cs 0 ≤ limit ∧ f (Nat.ofDigitChars 10 cs 0) = n := by
  constructor
  · intro h
    obtain ⟨i, hi, rfl⟩ := map_eq_ok_iff.mp h
    obtain ⟨m, hread, hm⟩ := bind_eq_ok_iff.mp hi
    cases hm
    obtain ⟨hd, rfl, hle⟩ := (readDigits_eq_ok_iff (Nat.zero_le _)).mp hread
    exact ⟨hd, hle, rfl⟩
  · rintro ⟨hd, hle, rfl⟩
    rw [(readDigits_eq_ok_iff (Nat.zero_le _)).mpr ⟨hd, rfl, hle⟩]
    rfl

theorem readInt64_eq_ok_iff {text : String} {n : Int64} : readInt64 text = .ok n ↔ Int64Text text n := by
  constructor
  · intro h
    unfold readInt64 at h
    split at h
    · cases h
    · cases h
    · cases h
    · next cs hne htext =>
      obtain ⟨hd, hle, rfl⟩ := signed_eq_ok_iff.mp h
      exact ⟨['-'], cs, ⟨hne, hd⟩, htext, .inr ⟨rfl, Int64.toInt_ofInt_of_le (by omega) (by omega)⟩⟩
    · next cs hne htext =>
      obtain ⟨hd, hle, rfl⟩ := signed_eq_ok_iff.mp h
      exact ⟨['+'], cs, ⟨hne, hd⟩, htext, .inl ⟨.inr rfl, Int64.toInt_ofInt_of_le (by omega) (by omega)⟩⟩
    · next hne _ _ _ _ =>
      obtain ⟨hd, hle, rfl⟩ := signed_eq_ok_iff.mp h
      exact ⟨[], text.toList, ⟨hne, hd⟩, rfl, .inl ⟨.inl rfl, Int64.toInt_ofInt_of_le (by omega) (by omega)⟩⟩
  · rintro ⟨sign, digits, hd, htext, hn⟩
    have hbounds : -2 ^ 63 ≤ n.toInt ∧ n.toInt < 2 ^ 63 := ⟨n.le_toInt, n.toInt_lt⟩
    obtain ⟨c, cs, rfl⟩ := List.exists_cons_of_ne_nil hd.1
    rw [readInt64, htext]
    obtain ⟨hs, hn⟩ | ⟨rfl, hn⟩ := hn
    · have hof : Int64.ofInt (Nat.ofDigitChars 10 (c :: cs) 0) = n := by rw [← hn, Int64.ofInt_toInt]
      have hread : (readDigits 9223372036854775807 .tooLarge 0 (c :: cs) >>= fun m => pure (m : Int)).map
          Int64.ofInt = .ok n := signed_eq_ok_iff.mpr ⟨hd.2, by omega, hof⟩
      obtain rfl | rfl := hs
      · rw [List.nil_append]
        split
        · next h => cases h
        · next h => exact absurd (List.cons.inj h).1 hd.head.1
        · next h => exact absurd (List.cons.inj h).1 hd.head.2
        · next h => exact absurd (List.cons.inj h).1 hd.head.2
        · next h => exact absurd (List.cons.inj h).1 hd.head.1
        · exact hread
      · exact hread
    · have hof : Int64.ofInt (-(Nat.ofDigitChars 10 (c :: cs) 0 : Int)) = n := by rw [← hn, Int64.ofInt_toInt]
      have hread : (readDigits 9223372036854775808 .tooSmall 0 (c :: cs) >>= fun m => pure (m : Int)).map
          (fun i => Int64.ofInt (-i)) = .ok n := signed_eq_ok_iff.mpr ⟨hd.2, by omega, hof⟩
      exact hread

end OrderBench
