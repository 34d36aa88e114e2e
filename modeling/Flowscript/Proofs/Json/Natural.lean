import Flowscript.Json.Double
import Flowscript.Proofs.Json.Spelling

/-!
# Natural numbers in JSON

The digits of a natural number make a proper number (`proper_ofNat`) that is read as that number
(`toNat?_ofNat`). Below two to the power of 64 all of the digits are taken in, so that the number is a
finite double (`isFiniteDouble_ofNat`).
-/

namespace Flowscript.Numeral

variable {n : Nat} {cs : List Char}

/-- A digit other than zero is not written as zero. -/
lemma digitChar_ne_zero (hn : n < 10) (h : 0 < n) : Nat.digitChar n ≠ '0' := by
  have all : ∀ n < 10, 0 < n → Nat.digitChar n ≠ '0' := by decide
  exact all n hn h

/-- Only zero begins with a zero. -/
lemma head?_toDigits (h : 0 < n) : (Nat.toDigits 10 n).head? ≠ some '0' := by
  induction n using Nat.strongRecOn with
  | ind n ih =>
    by_cases small : n < 10
    · rw [Nat.toDigits_of_lt_base small]
      exact fun e => digitChar_ne_zero small h (Option.some.inj e)
    -- The last digit has digits in front of it, those of a number above zero.
    · rw [Nat.toDigits_of_base_le (by omega) (by omega), List.head?_append]
      have front := ih (n / 10) (by omega) (by omega)
      cases e : (Nat.toDigits 10 (n / 10)).head? with
      | none => exact absurd (List.head?_eq_none_iff.1 e) Nat.toDigits_ne_nil
      | some c =>
        rw [e] at front
        exact front

/-- The decimal digits of a number are a proper numeral: there is no zero in front of others. -/
lemma proper_ofNat (n : Nat) : (ofNat n).Proper where
  whole := ⟨Nat.toDigits_ne_nil, fun _ hd => Nat.isDigit_of_mem_toDigits (by omega) (by omega) hd⟩
  leading := by
    intro d ds e
    have digits : Nat.toDigits 10 n = '0' :: d :: ds := e
    rcases Nat.eq_zero_or_pos n with rfl | pos
    · rw [Nat.toDigits_of_lt_base (by omega)] at digits
      cases digits
    · apply head?_toDigits pos
      rw [digits, List.head?_cons]
  fraction := nofun
  exponent := nofun

/-- The decimal digits of a number have it for their value. -/
lemma toNat?_ofNat (n : Nat) : (ofNat n).toNat? = some n := by
  have value : valueOf (Nat.toDigits 10 n) = n := Nat.ofDigitChars_ten_toDigits
  rw [ofNat, toNat?, value]

/-- Further digits never make a number smaller. -/
lemma le_ofDigitChars (cs : List Char) (n : Nat) : n ≤ Nat.ofDigitChars 10 cs n := by
  induction cs generalizing n with
  | nil => exact Nat.le_refl n
  | cons c cs ih =>
    have step := ih (10 * n + (c.toNat - '0'.toNat))
    rw [Nat.ofDigitChars_cons]
    omega

/-- Digits that make a small number are all taken in. -/
lemma gather_eq (h : Nat.ofDigitChars 10 cs n < significandBound) :
    gather n cs = (Nat.ofDigitChars 10 cs n, []) := by
  induction cs generalizing n with
  | nil => rfl
  | cons c cs ih =>
    rw [Nat.ofDigitChars_cons] at h
    have fits := Nat.lt_of_le_of_lt (le_ofDigitChars cs _) h
    rw [gather, if_pos fits, ih h, Nat.ofDigitChars_cons]

/-- A number of 64 bits is taken in to its last digit, so nothing is left to scale it by. -/
lemma scaled_ofNat (h : n < significandBound) : (ofNat n).scaled = ⟨n, 0⟩ := by
  have value : Nat.ofDigitChars 10 (Nat.toDigits 10 n) 0 = n := Nat.ofDigitChars_ten_toDigits
  have digits : gather 0 (Nat.toDigits 10 n) = (n, []) := by
    rw [gather_eq (by rw [value]; exact h), value]
  rw [scaled, ofNat, digits]
  rfl

/-- Rounding adds at most one unit in the last place. -/
lemma roundBits_le (n : Nat) : roundBits n ≤ n + Nat.pow 2 (n.log2 + 1 - 53) := by
  have below := Nat.div_mul_le_self n (Nat.pow 2 (n.log2 + 1 - 53))
  rw [roundBits]
  split
  · omega
  · rw [Nat.add_mul, Nat.one_mul]
    omega

/-- A number of 64 bits is far below the largest double. -/
lemma isFiniteDouble_ofNat (h : n < significandBound) : (ofNat n).isFiniteDouble = true := by
  have log : n.log2 < 64 := by
    rcases Nat.eq_zero_or_pos n with rfl | pos
    · decide
    · exact (Nat.log2_lt (by omega)).2 h
  have unit : Nat.pow 2 (n.log2 + 1 - 53) ≤ Nat.pow 2 11 :=
    Nat.pow_le_pow_right (by omega) (by omega)
  have bound : significandBound + Nat.pow 2 11 ≤ doubleLimit := by decide +kernel
  have rounded := roundBits_le n
  -- All digits are taken in, so the power of ten that is left is one.
  have one : roundBits (Nat.pow 10 0) = 1 := by decide +kernel
  have small : roundBits n * roundBits (Nat.pow 10 0) < doubleLimit := by
    rw [one]
    omega
  rw [isFiniteDouble, scaled_ofNat h]
  simp only [Bool.or_eq_true, Bool.and_eq_true, decide_eq_true_eq]
  exact .inr ⟨Nat.zero_le _, small⟩

end Flowscript.Numeral
