import Covenant.Proofs.Text.Blank
import Covenant.Proofs.Text.Digits
import Covenant.Wording.Amount
import Mathlib.Algebra.Order.Field.Basic
import Mathlib.Algebra.Order.Ring.Abs
import Mathlib.Data.Rat.Cast.Order
import Mathlib.Tactic.FieldSimp
import Mathlib.Tactic.Linarith

/-!
# Decimals

A decimal denotes a rational number.  In units of a power of ten it is rounded to the whole number
nearest to it; of two that are as near, to the even one.  A numeral of a sign, digits, a point and
digits is read as the decimal with these digits.
-/

namespace Covenant

/-! ## Rounding half to even -/

/-- A whole number is the nearest to a number, and it is even if another one is as near. -/
structure IsNearestEven (value : ℚ) (units : Nat) : Prop where
  near : |value - units| ≤ 1 / 2
  even_of_tie : |value - units| = 1 / 2 → units % 2 = 0

namespace IsNearestEven

variable {value : ℚ} {units : Nat}

theorem of_lt (near : |value - units| < 1 / 2) : IsNearestEven value units :=
  ⟨near.le, fun tie => absurd tie near.ne⟩

theorem of_even (near : |value - units| = 1 / 2) (even : units % 2 = 0) : IsNearestEven value units :=
  ⟨near.le, fun _ => even⟩

theorem natCast (units : Nat) : IsNearestEven units units :=
  .of_lt (by norm_num)

end IsNearestEven

/-- The whole part of a quotient, and the fraction that is rounded off. -/
theorem natCast_div_eq {denominator : Nat} (positive : 0 < denominator) (numerator : Nat) :
    (numerator / denominator : ℚ) = (numerator / denominator : Nat) +
      ((numerator % denominator : Nat) / denominator : ℚ) := by
  have nonzero : (denominator : ℚ) ≠ 0 := by exact_mod_cast positive.ne'
  have whole : (numerator : ℚ) =
      denominator * (numerator / denominator : Nat) + (numerator % denominator : Nat) := by
    exact_mod_cast (Nat.div_add_mod numerator denominator).symm
  rw [eq_comm, ← sub_eq_zero]
  field_simp
  linarith

theorem isNearestEven_roundHalfEven {denominator : Nat} (positive : 0 < denominator)
    (numerator : Nat) :
    IsNearestEven (numerator / denominator) (roundHalfEven numerator denominator) := by
  have unit : (0 : ℚ) < denominator := by exact_mod_cast positive
  have less := Nat.mod_lt numerator positive
  rw [natCast_div_eq positive]
  simp only [roundHalfEven]
  generalize numerator / denominator = whole
  generalize numerator % denominator = rest at less
  have nonneg : (0 : ℚ) ≤ rest / denominator := by positivity
  -- The rest is compared with half the denominator.
  split_ifs with below above even
  · have small : (rest / denominator : ℚ) < 1 / 2 := by
      have double : (2 * rest : ℚ) < denominator := by exact_mod_cast below
      rw [div_lt_iff₀ unit]
      linarith
    refine .of_lt ?_
    rwa [add_sub_cancel_left, abs_of_nonneg nonneg]
  · have large : (1 / 2 : ℚ) < rest / denominator := by
      have double : (denominator : ℚ) < 2 * rest := by exact_mod_cast above
      rw [lt_div_iff₀ unit]
      linarith
    have atMost : (rest / denominator : ℚ) < 1 := by
      rw [div_lt_one unit]
      exact_mod_cast less
    refine .of_lt ?_
    rw [Nat.cast_add_one, abs_lt]
    constructor <;> linarith
  all_goals
    have tie : (rest / denominator : ℚ) = 1 / 2 := by
      have same : 2 * rest = denominator := by omega
      have double : (2 * rest : ℚ) = denominator := by exact_mod_cast same
      rw [div_eq_div_iff unit.ne' two_ne_zero]
      linarith
    rw [tie]
  · exact .of_even (by rw [add_sub_cancel_left]; norm_num) even
  · refine .of_even ?_ (by omega)
    rw [Nat.cast_add_one, add_sub_add_left_eq_sub]
    norm_num

namespace Decimal

/-- The number without its sign. -/
def magnitude (number : Decimal) : ℚ := number.coefficient * 10 ^ number.exponent

theorem lt_pow_digitCount (n : Nat) : n < 10 ^ digitCount n :=
  (Nat.length_toDigits_le_iff (by decide) Nat.length_toDigits_pos).mp Nat.le.refl

variable (places : Nat) (number : Decimal)

theorem magnitude_mul_pow :
    number.magnitude * 10 ^ places = number.coefficient * (10 : ℚ) ^ (number.exponent + places) := by
  rw [magnitude, zpow_add₀ (by norm_num), zpow_natCast, mul_assoc]

/-- A coefficient with fewer digits than are dropped is less than half a unit. -/
theorem isNearestEven_zero {coefficient dropped : Nat} (few : digitCount coefficient < dropped) :
    IsNearestEven (coefficient / 10 ^ dropped) 0 := by
  have unit : (0 : ℚ) < 10 ^ dropped := by positivity
  have bound : 10 * coefficient < 10 ^ dropped :=
    calc 10 * coefficient < 10 * 10 ^ digitCount coefficient :=
          Nat.mul_lt_mul_of_pos_left (lt_pow_digitCount coefficient) (by decide)
      _ = 10 ^ (digitCount coefficient + 1) := (Nat.pow_succ').symm
      _ ≤ 10 ^ dropped := Nat.pow_le_pow_right (by decide) few
  have tenth : (10 * coefficient : ℚ) < 10 ^ dropped := by exact_mod_cast bound
  refine .of_lt ?_
  rw [Nat.cast_zero, sub_zero, abs_of_nonneg (by positivity), div_lt_iff₀ unit]
  linarith

/-- Rounding to places gives the nearest number of units. -/
theorem isNearestEven_roundedUnits :
    IsNearestEven (number.magnitude * 10 ^ places) (number.roundedUnits places) := by
  rw [magnitude_mul_pow, roundedUnits]
  generalize number.exponent + (places : Int) = shift
  dsimp only
  split_ifs with zero exact few
  · rw [zero, Nat.cast_zero, zero_mul]
    exact .natCast 0
  · obtain ⟨added, rfl⟩ := Int.eq_ofNat_of_zero_le exact
    have same : (number.coefficient * 10 ^ (added : Int) : ℚ) =
        (number.coefficient * Nat.pow 10 (added : Int).toNat : Nat) := by
      simp
    rw [same]
    exact .natCast _
  all_goals
    obtain ⟨dropped, isDropped⟩ := Int.eq_ofNat_of_zero_le (show 0 ≤ -shift by omega)
    obtain rfl : shift = -(dropped : Int) := by omega
    rw [zpow_neg, zpow_natCast, ← div_eq_mul_inv]
    simp only [neg_neg, Int.toNat_natCast, Nat.pow_eq] at *
  · exact isNearestEven_zero few
  · simpa using isNearestEven_roundHalfEven (Nat.pow_pos (show 0 < 10 by decide)) number.coefficient

end Decimal

/-! ## Digits of whole numbers -/

namespace Text

theorem digitsToNat_append (first second : Text) :
    digitsToNat (first ++ second) = 10 ^ second.length * digitsToNat first + digitsToNat second :=
  (Nat.ofDigitChars_append 0).trans Nat.ofDigitChars_eq_ofDigitChars_zero

theorem isAsciiDigit_of_mem_ofNat {n : Nat} {c : Char} (member : c ∈ ofNat n) :
    isAsciiDigit c = true := isDigit_of_mem_ofNat member

/-- The digits of a positive number do not start with a zero. -/
theorem head?_ofNat_ne_zero {n : Nat} (positive : n ≠ 0) : (ofNat n).head? ≠ some '0' := by
  induction n using Nat.strong_induction_on with
  | _ n ih =>
    rw [ofNat, Nat.toDigits_eq_if (by decide)]
    split
    · rename_i single
      have digit : ∀ n < 10, n ≠ 0 → [n.digitChar].head? ≠ some '0' := by decide
      exact digit n single positive
    · rename_i several
      rw [List.head?_append_of_ne_nil _ Nat.toDigits_ne_nil]
      exact ih (n / 10) (by omega) (by omega)

variable {width n : Nat}

theorem length_ofNatPadded (few : n < 10 ^ width) (positive : 0 < width) :
    (ofNatPadded width n).length = width := by
  have atMost : (ofNat n).length ≤ width := (Nat.length_toDigits_le_iff (by decide) positive).mpr few
  rw [ofNatPadded, List.length_append, List.length_replicate, Nat.sub_add_cancel atMost]

theorem digitsToNat_ofNatPadded : digitsToNat (ofNatPadded width n) = n := by
  have zeros (count : Nat) : digitsToNat (List.replicate count '0') = 0 :=
    Nat.ofDigitChars_replicate_zero
  rw [ofNatPadded, digitsToNat_append, zeros, digitsToNat_ofNat, Nat.mul_zero, Nat.zero_add]

theorem isAsciiDigit_of_mem_ofNatPadded {c : Char} (member : c ∈ ofNatPadded width n) :
    isAsciiDigit c = true := by
  rcases List.mem_append.mp member with isZero | isDigit
  · rw [List.eq_of_mem_replicate isZero]
    decide
  · exact isAsciiDigit_of_mem_ofNat isDigit

end Text

/-! ## Characters of accepted numerals -/

namespace Decimal

/-- The characters of a numeral besides digits. -/
def numeralMarks : Text := ['+', '-', '.', 'e', 'E']

variable {text : Text} {c : Char}

theorem mem_splitSign (member : c ∈ text) : c = '-' ∨ c = '+' ∨ c ∈ (splitSign text).2 := by
  unfold splitSign
  split
  · exact (List.mem_cons.mp member).imp_right .inr
  · exact .inr (List.mem_cons.mp member)
  · exact .inr (.inr member)

theorem mem_dropWhile_of_mem {isKept : Char → Bool} (member : c ∈ text) (other : isKept c = false) :
    c ∈ text.dropWhile isKept := by
  rw [← List.takeWhile_append_dropWhile (p := isKept) (l := text), List.mem_append] at member
  refine member.resolve_left fun taken => ?_
  rw [List.mem_takeWhile_imp taken] at other
  cases other

theorem mem_numeralMarks_of_exponentOf? {exponent : Int} (read : exponentOf? text = some exponent)
    (member : c ∈ text) (noDigit : isAsciiDigit c = false) : c ∈ numeralMarks := by
  cases text with
  | nil => cases member
  | cons mark rest =>
      rw [exponentOf?] at read
      split at read
      · rename_i isMark
        rcases List.mem_cons.mp member with rfl | inRest
        · simp only [Bool.or_eq_true, decide_eq_true_eq] at isMark
          rcases isMark with rfl | rfl <;> decide
        · simp only at read
          split at read
          · rename_i digits
            rcases mem_splitSign inRest with rfl | rfl | inDigits
            · decide
            · decide
            · simp only [Bool.and_eq_true, List.all_eq_true] at digits
              rw [digits.2 c inDigits] at noDigit
              cases noDigit
          · cases read
      · cases read

theorem mem_splitFraction (member : c ∈ text) (noDigit : isAsciiDigit c = false) :
    c = '.' ∨ c ∈ (splitFraction text).2 := by
  unfold splitFraction
  split
  · refine (List.mem_cons.mp member).imp_right fun later => ?_
    rw [List.span_eq_takeWhile_dropWhile]
    exact mem_dropWhile_of_mem later noDigit
  · exact .inr member

/-- A numeral has digits, signs, a point and the mark of an exponent. -/
theorem mem_numeralMarks_of_ofNumeral? {number : Decimal} (read : ofNumeral? text = some number)
    (member : c ∈ text) (noDigit : isAsciiDigit c = false) : c ∈ numeralMarks := by
  simp only [ofNumeral?, List.span_eq_takeWhile_dropWhile] at read
  split at read
  · cases read
  · obtain ⟨exponent, isExponent, -⟩ := Option.map_eq_some_iff.mp read
    rcases mem_splitSign member with rfl | rfl | unsigned
    · decide
    · decide
    · rcases mem_splitFraction (mem_dropWhile_of_mem unsigned noDigit) noDigit with rfl | inExponent
      · decide
      · exact mem_numeralMarks_of_exponentOf? isExponent inExponent noDigit

end Decimal

namespace Amount

variable {text : Text} {number : Decimal}

theorem ofName?_ne_finite : ofName? text ≠ some (.finite number) := by
  simp only [ofName?]
  split
  · simp
  · simp
  · split <;> simp

theorem ofNumeral?_of_ofText? (accepted : ofText? text = some (.finite number)) :
    Decimal.ofNumeral? (Text.removeChar '_' (Text.normalizeDigits (Text.trim text))) = some number := by
  rw [ofText?] at accepted
  split at accepted
  · rename_i named
    exact absurd (named.trans accepted) ofName?_ne_finite
  · obtain ⟨read, isRead, inRange⟩ := Option.bind_eq_some_iff.mp accepted
    rw [ofDecimal?] at inRange
    split_ifs at inRange
    all_goals
      obtain rfl := Amount.finite.inj (Option.some.inj inRange)
      exact isRead

/-- The text of an amount has no euro sign. -/
theorem euroSign_not_mem (accepted : ofText? text = some (.finite number)) : '€' ∉ text := by
  intro member
  have trimmed : '€' ∈ Text.trim text := Text.mem_trim_of_not_blank member (by decide)
  have normalized : '€' ∈ Text.normalizeDigits (Text.trim text) :=
    List.mem_map.mpr ⟨'€', trimmed, by decide⟩
  have inNumeral : '€' ∈ Text.removeChar '_' (Text.normalizeDigits (Text.trim text)) :=
    List.mem_filter.mpr ⟨normalized, by decide⟩
  have isMark := Decimal.mem_numeralMarks_of_ofNumeral? (ofNumeral?_of_ofText? accepted) inNumeral
    (by decide)
  exact absurd isMark (by decide)

end Amount

/-! ## Reading a plain numeral -/

/-- A digit, a minus sign or a point. -/
def IsPlainChar (c : Char) : Prop := isAsciiDigit c = true ∨ c = '-' ∨ c = '.'

theorem exists_asciiDigit {c : Char} (digit : isAsciiDigit c = true) :
    ∃ value < 10, c = asciiDigit value := by
  obtain ⟨least, most⟩ := toNat_of_isDigit digit
  refine ⟨c.toNat - 0x30, by omega, ?_⟩
  rw [asciiDigit, Nat.add_sub_cancel' least, Char.ofNat_toNat]

theorem toLower_asciiDigit : ∀ value < 10, (asciiDigit value).toLower = asciiDigit value := by decide

theorem map_toLower_digits {digits : Text} (row : ∀ c ∈ digits, isAsciiDigit c = true) :
    digits.map Char.toLower = digits := by
  refine (List.map_congr_left fun c member => ?_).trans (List.map_id _)
  obtain ⟨value, single, rfl⟩ := exists_asciiDigit (row c member)
  exact toLower_asciiDigit value single

/-- Reading takes a digit, a minus sign or a point as it is. -/
theorem IsPlainChar.is_kept {c : Char} (plain : IsPlainChar c) :
    Text.normalizeDigits [c] = [c] ∧ isNumeralSpace c = false ∧ c ≠ '_' := by
  rcases plain with digit | rfl | rfl
  · obtain ⟨value, single, rfl⟩ := exists_asciiDigit digit
    revert value
    decide
  · decide
  · decide

section Plain

variable {text whole fraction : Text} {c : Char}

theorem dropWhile_isNumeralSpace (plain : ∀ c ∈ text, IsPlainChar c) :
    text.dropWhile isNumeralSpace = text := by
  cases text with
  | nil => rfl
  | cons c rest =>
      have noSpace := (plain c List.mem_cons_self).is_kept.2.1
      exact List.dropWhile_cons_of_neg (by simp [noSpace])

theorem numeralOf_of_plain (plain : ∀ c ∈ text, IsPlainChar c) : numeralOf text = text := by
  have normalized : Text.normalizeDigits text = text := by
    refine (List.map_congr_left fun c member => ?_).trans (List.map_id _)
    exact List.singleton_injective (plain c member).is_kept.1
  rw [numeralOf, normalized, dropWhile_isNumeralSpace plain]

theorem span_digits (digits : ∀ c ∈ whole, isAsciiDigit c = true) (noDigit : isAsciiDigit c = false)
    (rest : Text) : (whole ++ c :: rest).span isAsciiDigit = (whole, c :: rest) := by
  rw [List.span_eq_takeWhile_dropWhile, List.takeWhile_append_of_pos digits,
    List.dropWhile_append_of_pos digits, List.takeWhile_cons_of_neg (by simp [noDigit]),
    List.dropWhile_cons_of_neg (by simp [noDigit]), List.append_nil]

theorem splitSign_sign (negative : Bool) (digit : isAsciiDigit c = true) (rest : Text) :
    Decimal.splitSign (Amount.sign negative ++ c :: rest) = (negative, c :: rest) := by
  cases negative with
  | false => exact splitSign_of_digit digit rest
  | true => rfl

theorem ofName?_plain (negative : Bool) (digit : isAsciiDigit c = true) (rest : Text) :
    Binary64.ofName? (Amount.sign negative ++ c :: rest) = none := by
  have noLetter : c.toLower ≠ 'i' ∧ c.toLower ≠ 'n' := by
    obtain ⟨value, single, rfl⟩ := exists_asciiDigit digit
    revert value
    decide
  have other (name : Text) (letter : name.head? = some 'i' ∨ name.head? = some 'n') :
      (c :: rest).map Char.toLower ≠ name := by
    rintro rfl
    simp [noLetter] at letter
  rw [Binary64.ofName?, splitSign_sign negative digit]
  simp only
  rw [if_neg, if_neg (other _ (.inr rfl))]
  simp only [Bool.or_eq_true, decide_eq_true_eq, not_or]
  exact ⟨other _ (.inl rfl), other _ (.inl rfl)⟩

variable (negative : Bool) (filled : whole ≠ []) (wholeDigits : ∀ c ∈ whole, isAsciiDigit c = true)
  (fractionDigits : ∀ c ∈ fraction, isAsciiDigit c = true)

include filled wholeDigits fractionDigits

theorem ofNumeral?_plain : Decimal.ofNumeral? (Amount.sign negative ++ (whole ++ '.' :: fraction)) =
    some ⟨negative, Text.digitsToNat (whole ++ fraction), -fraction.length⟩ := by
  have unsigned : Decimal.splitSign (Amount.sign negative ++ (whole ++ '.' :: fraction)) =
      (negative, whole ++ '.' :: fraction) := by
    obtain ⟨c, rest, rfl⟩ := List.exists_cons_of_ne_nil filled
    exact splitSign_sign negative (wholeDigits c List.mem_cons_self) _
  have noPoint : isAsciiDigit '.' = false := by decide
  have split : fraction.span isAsciiDigit = (fraction, []) := by
    rw [List.span_eq_takeWhile_dropWhile, List.takeWhile_eq_self_iff.mpr fractionDigits,
      List.dropWhile_eq_nil_iff.mpr fractionDigits]
  simp only [Decimal.ofNumeral?, unsigned, span_digits wholeDigits noPoint, Decimal.splitFraction,
    split, Decimal.exponentOf?]
  rw [if_neg (by simp [filled])]
  simp

/-- A plain numeral is read as the decimal that it denotes. -/
theorem Binary64.ofText?_plain : ofText? (Amount.sign negative ++ (whole ++ '.' :: fraction)) =
    some (ofDecimal ⟨negative, Text.digitsToNat (whole ++ fraction), -fraction.length⟩) := by
  have plain : ∀ c ∈ Amount.sign negative ++ (whole ++ '.' :: fraction), IsPlainChar c := by
    simp only [List.forall_mem_append, List.forall_mem_cons]
    refine ⟨fun c isSign => ?_, fun c member => .inl (wholeDigits c member), .inr (.inr rfl),
      fun c member => .inl (fractionDigits c member)⟩
    cases negative with
    | false => cases isSign
    | true => exact .inr (.inl (List.mem_singleton.mp isSign))
  have noUnderscore : '_' ∉ Amount.sign negative ++ (whole ++ '.' :: fraction) := fun member =>
    (plain '_' member).is_kept.2.2 rfl
  have trimmed := dropWhile_isNumeralSpace fun c member => plain c (List.mem_reverse.mp member)
  have noName : ofName? (Amount.sign negative ++ (whole ++ '.' :: fraction)) = none := by
    obtain ⟨c, rest, rfl⟩ := List.exists_cons_of_ne_nil filled
    exact ofName?_plain negative (wholeDigits c List.mem_cons_self) _
  simp only [ofText?, numeralOf_of_plain plain, trimmed, List.reverse_reverse,
    dropUnderscores?_of_not_mem noUnderscore (Option.some_ne_none '_').symm, Option.bind_eq_bind,
    Option.bind_some, noName, ofNumeral?_plain negative filled wholeDigits fractionDigits,
    Option.map_some]

end Plain

end Covenant
