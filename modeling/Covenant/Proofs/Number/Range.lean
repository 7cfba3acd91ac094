import Covenant.Number.Binary64
import Mathlib.Data.Nat.Log
import Mathlib.Tactic.Ring

/-!
# The range of binary floating-point numbers

An integer has a nearest number unless it is so large that it rounds to infinity.  The greatest
number is `(2 ^ 53 - 1) * 2 ^ 971`; what is half a unit of its last place above it is rounded up,
since its mantissa is odd.
-/

namespace Covenant

theorem roundHalfEven_le (numerator denominator : Nat) :
    roundHalfEven numerator denominator ≤ numerator / denominator + 1 := by
  simp only [roundHalfEven]
  split_ifs <;> omega

/-- A quotient with an odd whole part is rounded up from one half on. -/
theorem roundHalfEven_of_odd {numerator denominator : Nat}
    (odd : numerator / denominator % 2 = 1) :
    roundHalfEven numerator denominator = numerator / denominator + 1 ↔
      denominator ≤ 2 * (numerator % denominator) := by
  simp only [roundHalfEven]
  split_ifs <;> omega

/-- The quotient by a unit is rounded to a power of two from half a unit below it on. -/
theorem roundHalfEven_eq_two_pow_iff (bits : Nat) {n half : Nat} (positive : 0 < half)
    (most : n < 2 ^ (bits + 1) * (2 * half)) :
    roundHalfEven n (2 * half) = 2 ^ (bits + 1) ↔ (2 ^ (bits + 2) - 1) * half ≤ n := by
  obtain ⟨power, isPower⟩ : ∃ power, 2 ^ bits = power + 1 :=
    Nat.exists_eq_add_of_le' Nat.one_le_two_pow
  have twice : 2 ^ (bits + 1) = 2 * power + 2 := by rw [Nat.pow_succ]; omega
  have fourfold : 2 ^ (bits + 2) - 1 = 4 * power + 3 := by rw [Nat.pow_succ]; omega
  rw [twice] at most ⊢
  rw [fourfold]
  have split := Nat.div_add_mod n (2 * half)
  have rest := Nat.mod_lt n (show 0 < 2 * half by omega)
  have few : n / (2 * half) < 2 * power + 2 := Nat.div_lt_of_lt_mul (by rwa [Nat.mul_comm])
  have atMost := roundHalfEven_le n (2 * half)
  by_cases greatest : n / (2 * half) = 2 * power + 1
  · have rounds := roundHalfEven_of_odd (show n / (2 * half) % 2 = 1 by omega)
    rw [greatest] at rounds split
    rw [rounds]
    have expanded : (4 * power + 3) * half = 2 * half * (2 * power + 1) + half := by ring
    omega
  · have below : 2 * half * (n / (2 * half)) ≤ 2 * half * (2 * power) :=
      Nat.mul_le_mul_left _ (by omega)
    have expanded : (4 * power + 3) * half = 2 * half * (2 * power) + 3 * half := by ring
    omega

namespace Binary64

/-- The least magnitude of integers that are rounded to infinity. -/
def leastTooLarge : Nat := (2 ^ 54 - 1) * 2 ^ 970

theorem leadingExponent_one {n : Nat} (positive : n ≠ 0) : leadingExponent n 1 = n.log2 := by
  have reached : 2 ^ n.log2 ≤ n := Nat.log2_self_le positive
  have noBits : Nat.log2 1 = 0 := rfl
  simp [leadingExponent, noBits, reached]

/-- An integer with more than 52 bits is infinite if its exponent is too large, also after the
mantissa has been rounded up to the next power of two. -/
theorem ofQuotient_one_eq_infinite_iff (negative : Bool) {n exponent : Nat}
    (bits : n.log2 = exponent + 52) :
    ofQuotient negative n 1 = .infinite negative ↔
      971 < exponent ∨ exponent = 971 ∧ roundHalfEven n (2 ^ exponent) = 2 ^ 53 := by
  have positive : n ≠ 0 := by
    rintro rfl
    simp at bits
  have isExponent : max leastExponent (leadingExponent n 1 - 52) = exponent := by
    rw [leadingExponent_one positive, leastExponent]
    omega
  rw [ofQuotient, if_neg positive, isExponent]
  simp only [Int.natCast_nonneg, if_true, Int.toNat_natCast, Nat.one_mul, Nat.pow_eq,
    greatestExponent]
  by_cases carries : roundHalfEven n (2 ^ exponent) = 2 ^ 53
  · simp only [carries, if_true]
    split_ifs with large <;> simp <;> omega
  · simp only [carries, if_false]
    split_ifs with large <;> simp <;> omega

theorem ofQuotient_one_ne_infinite (negative : Bool) {n : Nat} (few : n.log2 < 52) :
    ofQuotient negative n 1 ≠ .infinite negative := by
  by_cases zero : n = 0
  · simp [ofQuotient, zero, Binary64.zero]
  · have isSmall : max leastExponent (leadingExponent n 1 - 52) < 0 := by
      rw [leadingExponent_one zero, leastExponent]
      omega
    rw [ofQuotient, if_neg zero]
    generalize max leastExponent (leadingExponent n 1 - 52) = exponent at isSmall
    simp only [greatestExponent]
    split_ifs <;> first | omega | simp

theorem lt_two_pow_of_log2_lt {n bits : Nat} (few : n.log2 < bits) : n < 2 ^ bits := by
  by_cases zero : n = 0
  · rw [zero]
    exact Nat.two_pow_pos bits
  · exact (Nat.log2_lt zero).mp few

theorem lt_leastTooLarge_of_log2 {n : Nat} (few : n.log2 < 1023) : n < leastTooLarge := by
  have bound : 2 ^ 1023 ≤ leastTooLarge := by decide +kernel
  exact Nat.lt_of_lt_of_le (lt_two_pow_of_log2_lt few) bound

theorem leastTooLarge_le_of_log2 {n : Nat} (many : 1024 ≤ n.log2) : leastTooLarge ≤ n := by
  have bound : leastTooLarge < 2 ^ 1024 := by decide +kernel
  by_contra! less
  have few := (Nat.log2_lt (by rintro rfl; simp at many)).mpr (less.trans bound)
  omega

/-- The mantissa of an integer of at most 1024 bits decides. -/
theorem roundHalfEven_eq_carry_iff {n : Nat} (most : n < 2 ^ 1024) :
    roundHalfEven n (2 ^ 971) = 2 ^ 53 ↔ leastTooLarge ≤ n := by
  have unit : 2 ^ 971 = 2 * 2 ^ 970 := by decide +kernel
  have bound : 2 ^ 1024 = 2 ^ 53 * (2 * 2 ^ 970) := by decide +kernel
  have positive : 0 < 2 ^ 970 := by decide +kernel
  rw [unit, leastTooLarge]
  rw [bound] at most
  generalize 2 ^ 970 = half at positive most
  exact roundHalfEven_eq_two_pow_iff 52 positive most

theorem ofQuotient_one_eq_infinite_iff_le (negative : Bool) (n : Nat) :
    ofQuotient negative n 1 = .infinite negative ↔ leastTooLarge ≤ n := by
  rcases Nat.lt_or_ge n.log2 52 with few | many
  · have small : n < leastTooLarge := lt_leastTooLarge_of_log2 (by omega)
    exact iff_of_false (ofQuotient_one_ne_infinite negative few) (by omega)
  · obtain ⟨exponent, bits⟩ := Nat.exists_eq_add_of_le' many
    have positive : n ≠ 0 := by
      rintro rfl
      simp at bits
    rw [ofQuotient_one_eq_infinite_iff negative bits]
    rcases Nat.lt_trichotomy exponent 971 with less | rfl | more
    · have small : n < leastTooLarge := lt_leastTooLarge_of_log2 (by omega)
      omega
    · have most : n < 2 ^ 1024 := lt_two_pow_of_log2_lt (by omega)
      simp only [← roundHalfEven_eq_carry_iff most, Nat.lt_irrefl, false_or, true_and]
    · exact iff_of_true (.inl more) (leastTooLarge_le_of_log2 (by omega))

theorem eq_of_ofQuotient_eq_infinite {negative sign : Bool} {numerator denominator : Nat}
    (infinite : ofQuotient negative numerator denominator = .infinite sign) : sign = negative := by
  rw [ofQuotient] at infinite
  simp only [Binary64.zero] at infinite
  split_ifs at infinite <;> cases infinite <;> rfl

/-- An integer is too large for a number exactly when its magnitude reaches the bound. -/
theorem ofInt?_eq_none_iff (n : Int) : ofInt? n = none ↔ leastTooLarge ≤ n.natAbs := by
  rw [← ofQuotient_one_eq_infinite_iff_le (n < 0), ofInt?]
  cases rounded : ofQuotient (n < 0) n.natAbs 1 with
  | infinite sign => simp [eq_of_ofQuotient_eq_infinite rounded]
  | nan => simp
  | finite sign mantissa exponent => simp

end Binary64

end Covenant
