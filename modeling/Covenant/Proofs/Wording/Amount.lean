import Covenant.Condition.Comparison
import Covenant.Proofs.Collection.Written
import Covenant.Proofs.Number.Decimal
import Covenant.Proofs.Text.Pieces

/-!
# Amounts and their numbers

The text of an amount has the number of cents nearest to the amount.  A condition reads it as the plain
numeral of the same number, so it compares what was written.
-/

namespace Covenant

namespace Amount

variable {negative : Bool} {units : Nat} {whole cents written : Text} {groups : List Text}

/-- A sign, groups of digits between points, a comma and the cents. -/
def groupedNumber (negative : Bool) (groups : List Text) (cents : Text) : Text :=
  sign negative ++ (Text.joinWith ['.'] groups ++ ',' :: cents)

/-- A text is the euro sign and a number of cents, with the whole units in groups of three. -/
structure IsEuroText (negative : Bool) (units : Nat) (whole cents written : Text) : Prop where
  grouped : ∃ groups, Text.IsGrouping 3 whole groups ∧
    written = "€ " ++ groupedNumber negative groups cents
  digits : ∀ c ∈ whole ++ cents, isAsciiDigit c = true
  places : cents.length = 2
  noLeadingZero : whole = ['0'] ∨ whole.head? ≠ some '0'
  value : Text.digitsToNat (whole ++ cents) = units

theorem isEuroText_ofCents (negative : Bool) (units : Nat) :
    IsEuroText negative units (Text.ofNat (units / 100)) (Text.ofNatPadded 2 (units % 100))
      ("€ " ++ (sign negative ++ ofCents units)) where
  grouped := by
    obtain ⟨groups, grouping, grouped⟩ := Text.exists_isGrouping (show 0 < 3 by decide)
      (Nat.toDigits_ne_nil (n := units / 100) (b := 10)) '.'
    refine ⟨groups, grouping, ?_⟩
    rw [ofCents, Text.ofNat, grouped, groupedNumber]
  digits c member := (List.mem_append.mp member).elim Text.isAsciiDigit_of_mem_ofNat
    Text.isAsciiDigit_of_mem_ofNatPadded
  places := Text.length_ofNatPadded (Nat.mod_lt _ (by decide)) (by decide)
  noLeadingZero := by
    by_cases none : units / 100 = 0
    · exact .inl (by rw [none]; rfl)
    · exact .inr (Text.head?_ofNat_ne_zero none)
  value := by
    have places : (Text.ofNatPadded 2 (units % 100)).length = 2 :=
      Text.length_ofNatPadded (Nat.mod_lt _ (by decide)) (by decide)
    rw [Text.digitsToNat_append, places, Text.digitsToNat_ofNat, Text.digitsToNat_ofNatPadded]
    exact Nat.div_add_mod units 100

/-! ### Taking the separators away -/

theorem not_mem_sign {c : Char} (other : c ≠ '-') : c ∉ sign negative := by
  cases negative <;> simp [sign, other]

section Digits

variable (grouping : Text.IsGrouping 3 whole groups)
  (digits : ∀ c ∈ whole ++ cents, isAsciiDigit c = true)

include digits

theorem not_mem_of_noDigit {c : Char} (noDigit : isAsciiDigit c = false) : c ∉ whole ∧ c ∉ cents := by
  rw [← not_or, ← List.mem_append]
  intro member
  rw [digits c member] at noDigit
  cases noDigit

theorem replaceChar_comma : Text.replaceChar ',' "." (sign negative ++ (whole ++ ',' :: cents)) =
    sign negative ++ (whole ++ '.' :: cents) := by
  obtain ⟨notWhole, notCents⟩ := not_mem_of_noDigit digits (show isAsciiDigit ',' = false by decide)
  rw [Text.replaceChar_append, Text.replaceChar_append,
    Text.replaceChar_eq_self (not_mem_sign (by decide)), Text.replaceChar_eq_self notWhole,
    ← List.singleton_append (l := cents), Text.replaceChar_append, Text.replaceChar_eq_self notCents]
  rfl

include grouping

theorem not_mem_groupedNumber {c : Char} (noDigit : isAsciiDigit c = false)
    (noMark : c ∉ ['-', '.', ',']) : c ∉ groupedNumber negative groups cents := by
  obtain ⟨notWhole, notCents⟩ := not_mem_of_noDigit digits noDigit
  have notGrouped : c ∉ Text.joinWith ['.'] groups := by
    intro member
    rcases Text.mem_of_mem_joinWith member with isPoint | ⟨group, isGroup, inGroup⟩
    · simp_all
    · exact notWhole (grouping.flatten_eq ▸ List.mem_flatten_of_mem isGroup inGroup)
  have notSign : c ∉ sign negative := not_mem_sign (by rintro rfl; simp at noMark)
  simp_all [groupedNumber]

theorem removeChar_point : Text.removeChar '.' (groupedNumber negative groups cents) =
    sign negative ++ (whole ++ ',' :: cents) := by
  obtain ⟨notWhole, notCents⟩ := not_mem_of_noDigit digits (show isAsciiDigit '.' = false by decide)
  have atEnd : '.' ∉ ',' :: cents := by simp [notCents]
  rw [groupedNumber, Text.removeChar_append, Text.removeChar_append,
    Text.removeChar_eq_self (not_mem_sign (by decide)), grouping.removeChar_joinWith notWhole,
    Text.removeChar_eq_self atEnd]

theorem removeChar_euroSign :
    Text.removeChar ' ' (Text.removeChar '€' ("€ " ++ groupedNumber negative groups cents)) =
      groupedNumber negative groups cents := by
  rw [Text.removeChar_append, Text.removeChar_append,
    Text.removeChar_eq_self (not_mem_groupedNumber grouping digits (by decide) (by decide)),
    Text.removeChar_eq_self (not_mem_groupedNumber grouping digits (by decide) (by decide))]
  rfl

end Digits

namespace IsEuroText

theorem wholeDigits (euro : IsEuroText negative units whole cents written) :
    ∀ c ∈ whole, isAsciiDigit c = true :=
  fun c member => euro.digits c (List.mem_append_left _ member)

theorem centDigits (euro : IsEuroText negative units whole cents written) :
    ∀ c ∈ cents, isAsciiDigit c = true :=
  fun c member => euro.digits c (List.mem_append_right _ member)

theorem whole_ne_nil (euro : IsEuroText negative units whole cents written) : whole ≠ [] := by
  obtain ⟨groups, ⟨flatten, first, others, isFirst, least, -, -⟩, -⟩ := euro.grouped
  rw [← flatten, isFirst]
  exact List.ne_nil_of_length_pos (by rw [List.flatten_cons, List.length_append]; omega)

theorem isTight (euro : IsEuroText negative units whole cents written) : Text.IsTight written := by
  obtain ⟨groups, -, rfl⟩ := euro.grouped
  obtain ⟨ten, one, rfl⟩ := List.length_eq_two.mp euro.places
  have lastDigit : isBlank one = false := isBlank_of_isDigit (euro.centDigits one (by simp))
  refine ⟨⟨'€', _, rfl, by decide⟩,
    "€ " ++ (sign negative ++ (Text.joinWith ['.'] groups ++ [',', ten])), one, ?_, lastDigit⟩
  simp [groupedNumber]

/-- Without the euro sign and the separators the text is a plain numeral. -/
theorem plainNumeral_eq (euro : IsEuroText negative units whole cents written) :
    plainNumeral written = sign negative ++ (whole ++ '.' :: cents) := by
  have trimmed := euro.isTight.trim
  obtain ⟨groups, grouping, rfl⟩ := euro.grouped
  have comma : (groupedNumber negative groups cents).contains ',' = true := by
    simp [groupedNumber]
  simp only [plainNumeral, trimmed, removeChar_euroSign grouping euro.digits, comma, if_true]
  -- A number below a thousand has no points to take away.
  have unpointed : (if (groupedNumber negative groups cents).contains '.' then
      Text.removeChar '.' (groupedNumber negative groups cents)
      else groupedNumber negative groups cents) = sign negative ++ (whole ++ ',' :: cents) := by
    rw [← removeChar_point grouping euro.digits, ite_eq_left_iff]
    intro noPoint
    exact (Text.removeChar_eq_self (by simpa using noPoint)).symm
  rw [unpointed, replaceChar_comma euro.digits]

theorem numberOfText?_eq (euro : IsEuroText negative units whole cents written) :
    numberOfText? written = some (Binary64.ofDecimal ⟨negative, units, -2⟩) := by
  rw [numberOfText?, euro.plainNumeral_eq, Binary64.ofText?_plain negative euro.whole_ne_nil
    euro.wholeDigits euro.centDigits, euro.value, euro.places]
  rfl

end IsEuroText

end Amount

/-! ## Conditions on a text that is a number -/

/-- The relation that an operator on numbers stands for. -/
def Operator.order? : Operator → Option (Binary64 → Binary64 → Bool)
  | .greater => some fun left right => right.lt left
  | .greaterOrEqual => some fun left right => right.le left
  | .less => some Binary64.lt
  | .lessOrEqual => some Binary64.le
  | _ => none

/-- Conditions on a text compare a number. -/
structure ComparesAs (written : Text) (number : Binary64) : Prop where
  ordered : ∀ (operator : Operator) compare, operator.order? = some compare → ∀ expected,
    operator.holds (some written) expected =
      (numberOf? expected).map fun right => right.any (compare number)
  equal : ∀ expected right, numberOfText? expected.stored = some right →
    Operator.equals.holds (some written) expected = .ok (number.eq right) ∧
      Operator.notEquals.holds (some written) expected = .ok !(number.eq right)

theorem numberOfText?_trim (text : Text) : numberOfText? (Text.trim text) = numberOfText? text := by
  rw [numberOfText?, plainNumeral, Text.trim_trim, ← plainNumeral, ← numberOfText?]

theorem comparesAs_of_numberOfText? {written : Text} {number : Binary64}
    (read : numberOfText? written = some number) : ComparesAs written number where
  ordered operator compare isOrder expected := by
    have compared : Operator.compareNumbers compare (some written) expected =
        (numberOf? expected).map fun right => right.any (compare number) := by
      rw [Operator.compareNumbers, Option.bind_some, read]
      cases numberOf? expected with
      | error fault => rfl
      | ok right => cases right <;> rfl
    cases operator <;> cases isOrder <;> exact compared
  equal expected right isRight := by
    have same : valuesEqual (.text written) expected = number.eq right := by
      have stored : Value.stored (.text written) = written := rfl
      rw [valuesEqual, textsEqual, stored, numberOfText?_trim, numberOfText?_trim, read, isRight]
    exact ⟨congrArg Except.ok same, congrArg (fun truth => Except.ok !truth) same⟩

namespace Wording

theorem amount_of_ofText? {text : Text} {number : Decimal}
    (accepted : Amount.ofText? text = some (.finite number)) :
    amount (.text text) = (Amount.finite number).toText.map fun written : Text => "€ " ++ written := by
  have filled : text.isEmpty = false := by
    cases text with
    | nil =>
        have refused : Amount.ofText? [] = none := by decide
        cases refused.symm.trans accepted
    | cons c rest => rfl
  have bare := Text.removeChar_eq_self (Amount.euroSign_not_mem accepted)
  rw [amount, Value.isAbsent, if_neg (by simp [filled]), Value.plain, bare, accepted]

/-- **Amounts are written exactly and read back.**  A text that is a finite amount is written if it has
no more digits than a text may have characters.  What is written is the euro sign, the sign of the
amount and the number of cents nearest to it, of two the even one: the whole units in groups of three
without leading zeros, a comma and two digits.  It is read as the plain numeral of this number, and
conditions compare this number. -/
theorem amount_is_exact {text : Text} {number : Decimal}
    (accepted : Amount.ofText? text = some (.finite number)) :
    (Outcome.Returns (amount (.text text)) ↔ Amount.centDigitCount number ≤ greatestTextLength) ∧
    IsNearestEven (number.magnitude * 10 ^ 2) (number.roundedUnits 2) ∧
    ∀ written, amount (.text text) = .ok written → ∃ whole cents,
      Amount.IsEuroText number.negative (number.roundedUnits 2) whole cents written ∧
      plainNumeral written = Amount.sign number.negative ++ (whole ++ '.' :: cents) ∧
      numberOfText? written =
        some (Binary64.ofDecimal ⟨number.negative, number.roundedUnits 2, -2⟩) ∧
      ComparesAs written (Binary64.ofDecimal ⟨number.negative, number.roundedUnits 2, -2⟩) := by
  refine ⟨?_, number.isNearestEven_roundedUnits 2, fun written returned => ?_⟩
  · have bare := Text.removeChar_eq_self (Amount.euroSign_not_mem accepted)
    rw [returns_amount_iff, IsShortAmount, Value.plain, bare, accepted]
    simp
  · rw [amount_of_ofText? accepted] at returned
    obtain ⟨bareText, isBare, rfl⟩ := Outcome.map_eq_ok_iff.mp returned
    rw [Amount.toText] at isBare
    split_ifs at isBare
    obtain rfl := Except.ok.inj isBare
    have euro := Amount.isEuroText_ofCents number.negative (number.roundedUnits 2)
    exact ⟨_, _, euro, euro.plainNumeral_eq, euro.numberOfText?_eq,
      comparesAs_of_numberOfText? euro.numberOfText?_eq⟩

/-- Half a cent more than a thousand is owed. -/
theorem amount_is_exact_negativeThousand :
    let owed : Decimal := ⟨true, 10000050, -4⟩
    Amount.ofText? " -１0_00.0050e-0 " = some (.finite owed) ∧
      amount (.text " -１0_00.0050e-0 ") = .ok "€ -1.000,00" ∧
      IsNearestEven (owed.magnitude * 10 ^ 2) 100000 ∧
      numberOfText? "€ -1.000,00" = some (Binary64.ofDecimal ⟨true, 100000, -2⟩) ∧
      Operator.less.holds (some "€ -1.000,00") (.text "-999,99") = .ok true := by
  intro owed
  have accepted : Amount.ofText? " -１0_00.0050e-0 " = some (.finite owed) := by decide +kernel
  have isUnits : owed.roundedUnits 2 = 100000 := by decide +kernel
  obtain ⟨-, nearest, reads⟩ := amount_is_exact accepted
  rw [isUnits] at nearest reads
  have returned : amount (.text " -１0_00.0050e-0 ") = .ok "€ -1.000,00" :=
    Outcome.eq_ok_of_toOption (by decide +kernel)
  obtain ⟨whole, cents, -, -, read, compares⟩ := reads _ returned
  refine ⟨accepted, returned, nearest, read, ?_⟩
  rw [compares.ordered .less Binary64.lt rfl]
  exact Outcome.eq_ok_of_toOption (by decide +kernel)

/-- An amount that has more digits than an amount in cents may have. -/
theorem amount_too_large :
    Amount.ofText? "1e999999999999999999" = some (.finite ⟨false, 1, 999999999999999999⟩) ∧
      amount (.text "1e999999999999999999") = .error .amountTooLarge := by
  have accepted : Amount.ofText? "1e999999999999999999" =
      some (.finite ⟨false, 1, 999999999999999999⟩) := by
    decide +kernel
  refine ⟨accepted, ?_⟩
  rw [amount_of_ofText? accepted, Amount.toText, if_pos (by decide +kernel)]
  rfl

end Wording

end Covenant
