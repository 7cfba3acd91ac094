import Covenant.Fault
import Mathlib.Data.Char
import Mathlib.Data.List.TakeDrop
import Mathlib.Data.List.TakeWhile

/-!
# Numerals of digits

A number is determined by its digits.  A row of digits, of any scripts, is read as an integer unless
it is too long.
-/

namespace Covenant

theorem digitValue?_lt {c : Char} {value : Nat} (isValue : digitValue? c = some value) :
    value < 10 := by
  rw [digitValue?] at isValue
  split at isValue
  · split at isValue
    · rename_i inRow
      obtain rfl := Option.some.inj isValue
      simp only [Bool.and_eq_true, decide_eq_true_eq] at inRow
      omega
    · cases isValue
  · obtain ⟨start, found, rfl⟩ := Option.map_eq_some_iff.mp isValue
    have inRow := List.find?_some found
    simp only [Bool.and_eq_true, decide_eq_true_eq] at inRow
    omega

theorem isAsciiDigit_asciiDigit : ∀ value < 10, isAsciiDigit (asciiDigit value) = true := by decide

namespace Text

theorem ofNat_injective {number other : Nat} (same : ofNat number = ofNat other) :
    number = other := by
  have read := congrArg (fun digits => Nat.ofDigitChars 10 digits 0) same
  simpa [ofNat] using read

theorem isAsciiDigit_of_mem_normalizeDigits {digits : Text} (row : digits.all isDigit) {c : Char}
    (member : c ∈ normalizeDigits digits) : isAsciiDigit c = true := by
  obtain ⟨d, isMember, rfl⟩ := List.mem_map.mp member
  obtain ⟨value, isValue⟩ := Option.isSome_iff_exists.mp (List.all_eq_true.mp row d isMember)
  rw [isValue]
  exact isAsciiDigit_asciiDigit value (digitValue?_lt isValue)

end Text

theorem dropUnderscores?_of_not_mem {numeral : Text} (absent : '_' ∉ numeral) {before : Option Char}
    (otherBefore : before ≠ some '_') : dropUnderscores? before numeral = some numeral := by
  induction numeral generalizing before with
  | nil => rw [dropUnderscores?, if_neg otherBefore]
  | cons c numeral ih =>
      obtain ⟨isOther, absentLater⟩ := not_or.mp (mt List.mem_cons.mpr absent)
      have later := ih absentLater fun same => isOther (Option.some.inj same).symm
      simp [dropUnderscores?, Ne.symm isOther, otherBefore, later]

theorem splitSign_of_unsigned {c : Char} (noMinus : c ≠ '-') (noPlus : c ≠ '+') (rest : Text) :
    Decimal.splitSign (c :: rest) = (false, c :: rest) := by
  unfold Decimal.splitSign
  split
  · rename_i same
    exact absurd (List.cons.inj same).1 noMinus
  · rename_i same
    exact absurd (List.cons.inj same).1 noPlus
  · rfl

theorem splitSign_of_digit {c : Char} (digit : isAsciiDigit c = true) (rest : Text) :
    Decimal.splitSign (c :: rest) = (false, c :: rest) := by
  refine splitSign_of_unsigned ?_ ?_ rest
  all_goals
    rintro rfl
    exact absurd digit (by decide)

/-! ### Digits of ASCII -/

theorem toNat_of_isDigit {c : Char} (digit : c.isDigit = true) : 0x30 ≤ c.toNat ∧ c.toNat ≤ 0x39 := by
  simpa [Char.isDigit, UInt32.le_iff_toNat_le] using digit

theorem isDigit_of_mem_ofNat {n : Nat} {c : Char} (member : c ∈ Text.ofNat n) : c.isDigit = true :=
  Nat.isDigit_of_mem_toDigits (by decide) (by decide) member

theorem isBlank_of_isDigit {c : Char} (digit : c.isDigit = true) : isBlank c = false := by
  obtain ⟨least, greatest⟩ := toNat_of_isDigit digit
  simp only [isBlank]
  rw [if_pos (by omega)]
  simp
  omega

theorem digitValue?_of_isDigit {c : Char} (digit : c.isDigit = true) :
    digitValue? c = some (c.toNat - 0x30) := by
  obtain ⟨least, greatest⟩ := toNat_of_isDigit digit
  simp only [digitValue?]
  rw [if_pos (by omega), if_pos (by simp [least, greatest])]

theorem Text.normalizeDigits_ofNat (n : Nat) : normalizeDigits (ofNat n) = ofNat n := by
  refine (List.map_congr_left fun c member => ?_).trans (List.map_id _)
  have digit := isDigit_of_mem_ofNat member
  obtain ⟨least, -⟩ := toNat_of_isDigit digit
  have same : asciiDigit (c.toNat - 0x30) = c := by
    rw [asciiDigit, Nat.add_sub_cancel' least, Char.ofNat_toNat]
  simp only [digitValue?_of_isDigit digit, same, id]

theorem Text.digitsToNat_ofNat (n : Nat) : digitsToNat (ofNat n) = n :=
  Nat.ofDigitChars_toDigits (by decide) (by decide)

/-- A row of digits is an integer, which is read unless it has too many of them. -/
theorem readInteger_digits {digits : Text} (row : digits.all isDigit) (nonempty : digits ≠ []) :
    readInteger digits =
      if maxIntegerDigits < digits.length then .error (.tooManyDigits digits.length)
      else .ok (Text.digitsToNat (Text.normalizeDigits digits) : Int) := by
  have ascii : ∀ c ∈ Text.normalizeDigits digits, isAsciiDigit c = true :=
    fun c member => Text.isAsciiDigit_of_mem_normalizeDigits row member
  have sameLength : (Text.normalizeDigits digits).length = digits.length := List.length_map ..
  cases numeral : Text.normalizeDigits digits with
  | nil =>
      rw [numeral] at sameLength
      exact absurd (List.eq_nil_of_length_eq_zero sameLength.symm) nonempty
  | cons c rest =>
      rw [numeral] at ascii sameLength
      have atLeast : '0' ≤ c ∧ c ≤ '9' := by simpa [isAsciiDigit] using ascii c List.mem_cons_self
      have noSpace : isNumeralSpace c = false := by
        have below : '\r' < '0' := by decide
        have after : ¬ c ≤ '\r' := not_le.mpr (below.trans_le atLeast.1)
        have notBlank : c ≠ ' ' := by
          rintro rfl
          exact absurd atLeast.1 (by decide)
        simp [isNumeralSpace, after, notBlank]
      have noSign := splitSign_of_digit (ascii c List.mem_cons_self) rest
      have whole : (c :: rest).span (fun d => isAsciiDigit d || d = '_') = (c :: rest, []) := by
        rw [List.span_eq_takeWhile_dropWhile, List.takeWhile_eq_self_iff.mpr,
          List.dropWhile_eq_nil_iff.mpr]
        all_goals
          intro d member
          simp [ascii d member]
      have held : dropUnderscores? none (c :: rest) = some (c :: rest) :=
        dropUnderscores?_of_not_mem (fun member => absurd (ascii '_' member) (by decide))
          (Option.some_ne_none '_').symm
      have start : (c :: rest).dropWhile isNumeralSpace = c :: rest :=
        List.dropWhile_cons_of_neg (by simp [noSpace])
      simp only [readInteger, numeralOf, numeral, start, noSign, whole, held, sameLength]
      rfl

theorem readInteger_of_digits {digits : Text} (row : digits.all isDigit) (nonempty : digits ≠ [])
    (short : digits.length ≤ maxIntegerDigits) :
    readInteger digits = .ok (Text.digitsToNat (Text.normalizeDigits digits) : Int) := by
  rw [readInteger_digits row nonempty, if_neg (Nat.not_lt.mpr short)]

theorem readInteger_ofNat (n : Nat) :
    readInteger (Text.ofNat n) =
      if maxIntegerDigits < (Text.ofNat n).length then .error (.tooManyDigits (Text.ofNat n).length)
      else .ok (n : Int) := by
  have row : (Text.ofNat n).all isDigit = true := List.all_eq_true.mpr fun c member => by
    simp [isDigit, digitValue?_of_isDigit (isDigit_of_mem_ofNat member)]
  have nonempty : Text.ofNat n ≠ [] := Nat.toDigits_ne_nil
  rw [readInteger_digits row nonempty, Text.normalizeDigits_ofNat, Text.digitsToNat_ofNat]

end Covenant
