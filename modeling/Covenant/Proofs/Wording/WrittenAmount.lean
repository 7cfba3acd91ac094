import Covenant.Proofs.Number.Decimal
import Covenant.Proofs.Outcome
import Covenant.Proofs.Text.Lower
import Covenant.Proofs.Text.Pieces

/-!
# Amounts that are written already

What was written for a value is worded again as it is.  A finite amount has a comma, which no amount
that is read may have.  Infinities and what is not a number are read as the amounts they were written
for, with their sign and payload.
-/

namespace Covenant

namespace Amount

variable {text written : Text} {amount : Amount}

/-! ### Texts with a comma -/

theorem payload?_eq_none_of_comma (comma : ',' ∈ text) : payload? text = none := by
  refine if_neg fun digits => ?_
  have isDigit := List.all_eq_true.mp digits ',' comma
  exact absurd isDigit (by decide)

theorem ofName?_eq_none_of_comma (comma : ',' ∈ text) : ofName? text = none := by
  have unsigned : ',' ∈ (Decimal.splitSign text).2 := by
    rcases Decimal.mem_splitSign comma with isMinus | isPlus | member
    · exact absurd isMinus (by decide)
    · exact absurd isPlus (by decide)
    · exact member
  have inName : ',' ∈ (Decimal.splitSign text).2.map Char.toLower :=
    List.mem_map.mpr ⟨',', unsigned, by decide⟩
  have notWord {word : Text} (free : ',' ∉ word) : (Decimal.splitSign text).2.map Char.toLower ≠ word :=
    fun same => free (same ▸ inName)
  simp only [ofName?]
  split
  · rename_i digits named
    have inDigits : ',' ∈ digits := by simpa [named] using inName
    rw [payload?_eq_none_of_comma inDigits, Option.map_none]
  · rename_i digits named
    have inDigits : ',' ∈ digits := by simpa [named] using inName
    rw [payload?_eq_none_of_comma inDigits, Option.map_none]
  · refine if_neg ?_
    simp only [Bool.or_eq_true, decide_eq_true_eq, not_or]
    exact ⟨notWord (by decide), notWord (by decide)⟩

/-- No amount is read from a text with a comma. -/
theorem ofText?_eq_none_of_comma (comma : ',' ∈ text) : ofText? text = none := by
  have trimmed : ',' ∈ Text.trim text := Text.mem_trim_of_not_blank comma (by decide)
  have normalized : ',' ∈ Text.normalizeDigits (Text.trim text) :=
    List.mem_map.mpr ⟨',', trimmed, by decide⟩
  have inNumeral : ',' ∈ Text.removeChar '_' (Text.normalizeDigits (Text.trim text)) :=
    List.mem_filter.mpr ⟨normalized, by decide⟩
  have noNumeral : Decimal.ofNumeral? (Text.removeChar '_' (Text.normalizeDigits (Text.trim text))) =
      none := by
    refine Option.eq_none_iff_forall_ne_some.mpr fun number read => ?_
    have isMark := Decimal.mem_numeralMarks_of_ofNumeral? read inNumeral (by decide)
    exact absurd isMark (by decide)
  rw [ofText?, ofName?_eq_none_of_comma inNumeral, noNumeral, Option.bind_none]

/-! ### Names of amounts that are not finite -/

/-- A digit, a minus sign or a letter of the names `Infinity` and `sNaN`. -/
def IsNameChar (c : Char) : Prop := isAsciiDigit c = true ∨ c ∈ ("-InfinitysNaN" : Text)

/-- Reading takes the characters of a name as they are. -/
theorem IsNameChar.is_kept {c : Char} (isName : IsNameChar c) :
    isBlank c = false ∧ Text.normalizeDigits [c] = [c] ∧ c ≠ '_' ∧ c ≠ '€' := by
  have letters : ∀ c ∈ ("-InfinitysNaN" : Text),
      isBlank c = false ∧ Text.normalizeDigits [c] = [c] ∧ c ≠ '_' ∧ c ≠ '€' :=
    Text.forall_mem_of_all (by decide)
  rcases isName with digit | isLetter
  · obtain ⟨value, single, rfl⟩ := exists_asciiDigit digit
    revert value
    decide
  · exact letters c isLetter

/-- A name that is written: characters of names, not none of them. -/
structure IsName (written : Text) : Prop where
  filled : written ≠ []
  chars : ∀ c ∈ written, IsNameChar c

/-- A written word of letters and a minus sign. -/
theorem isNameChar_of_all {word : Text} (all : word.all (("-InfinitysNaN" : Text).contains ·) = true) :
    ∀ c ∈ word, IsNameChar c := fun c member => .inr (by simpa using List.all_eq_true.mp all c member)

theorem isNameChar_sign {negative : Bool} : ∀ c ∈ sign negative, IsNameChar c := by
  cases negative with
  | false => nofun
  | true => exact isNameChar_of_all (by decide)

theorem isName_sign_append {negative : Bool} {name : Text} (isName : IsName name) :
    IsName (sign negative ++ name) where
  filled := List.append_ne_nil_of_right_ne_nil _ isName.filled
  chars := List.forall_mem_append.mpr ⟨isNameChar_sign, isName.chars⟩

/-- Behind the euro sign a name is read as the amount that it names. -/
theorem IsName.ofText?_euro (isName : IsName written) (named : ofName? written = some amount) :
    ofText? (Text.removeChar '€' ("€ " ++ written)) = some amount := by
  have noEuro : Text.removeChar '€' ("€ " ++ written) = [' '] ++ (written ++ []) := by
    rw [Text.removeChar_append, Text.removeChar_eq_self fun member =>
      (isName.chars '€' member).is_kept.2.2.2 rfl, List.append_nil]
    rfl
  have trimmed : Text.trim ([' '] ++ (written ++ [])) = written :=
    Text.trim_around (Text.forall_mem_of_all (by decide)) nofun isName.filled
      fun c member => (isName.chars c member).is_kept.1
  have normalized : Text.normalizeDigits written = written := by
    refine (List.map_congr_left fun c member => ?_).trans (List.map_id _)
    exact List.singleton_injective (isName.chars c member).is_kept.2.1
  have kept : Text.removeChar '_' written = written :=
    Text.removeChar_eq_self fun member => (isName.chars '_' member).is_kept.2.2.1 rfl
  rw [noEuro, ofText?, trimmed, normalized, kept, named]

theorem ofName?_infinity (negative : Bool) :
    ofName? (sign negative ++ "Infinity") = some (.infinite negative) := by
  cases negative <;> decide

/-- What is not a number is read with its payload. -/
theorem ofName?_nan (negative signalling : Bool) {digits : Text}
    (row : ∀ c ∈ digits, isAsciiDigit c = true) :
    ofName? (sign negative ++ ((if signalling then "sNaN" else "NaN") ++ digits)) =
      some (.notANumber negative signalling (Text.digitsToNat digits)) := by
  have payload : payload? digits = some (Text.digitsToNat digits) := if_pos (List.all_eq_true.mpr row)
  have split : Decimal.splitSign (sign negative ++ ((if signalling then "sNaN" else "NaN") ++ digits)) =
      (negative, (if signalling then "sNaN" else "NaN") ++ digits) := by
    cases negative <;> cases signalling <;> rfl
  simp only [ofName?, split, List.map_append, map_toLower_digits row]
  cases signalling <;> exact congrArg (Option.map _) payload

/-- An amount that is not finite is written by a name, which is read as this amount. -/
theorem isName_of_toText (isWritten : amount.toText = .ok written)
    (notFinite : ∀ number, amount ≠ .finite number) : IsName written ∧ ofName? written = some amount := by
  cases amount with
  | finite number => exact absurd rfl (notFinite number)
  | infinite negative =>
      obtain rfl := Except.ok.inj isWritten
      exact ⟨isName_sign_append ⟨by decide, isNameChar_of_all (by decide)⟩,
        ofName?_infinity negative⟩
  | notANumber negative signalling payload =>
      obtain rfl := Except.ok.inj isWritten
      have row : ∀ c ∈ (if payload = 0 then [] else Text.ofNat payload), isAsciiDigit c = true := by
        split
        · nofun
        · exact fun c => Text.isAsciiDigit_of_mem_ofNat
      have value : Text.digitsToNat (if payload = 0 then [] else Text.ofNat payload) = payload := by
        split
        · rename_i zero
          exact zero.symm
        · exact Text.digitsToNat_ofNat payload
      rw [List.append_assoc, ofName?_nan negative signalling row, value]
      refine ⟨isName_sign_append ⟨by cases signalling <;> simp, ?_⟩, rfl⟩
      refine List.forall_mem_append.mpr ⟨isNameChar_of_all ?_, fun c member => .inl (row c member)⟩
      cases signalling <;> decide

/-- A finite amount is written with a comma. -/
theorem comma_mem_of_toText {number : Decimal} (isWritten : (finite number).toText = .ok written) :
    ',' ∈ written := by
  rw [toText] at isWritten
  split_ifs at isWritten
  obtain rfl := Except.ok.inj isWritten
  simp [ofCents]

end Amount

namespace Wording

variable {text : Text}

theorem amount_of_noAmount (noAmount : Amount.ofText? (Text.removeChar '€' text) = none) :
    amount (.text text) = .ok text := by
  rw [amount]
  split
  · rename_i isAbsent
    rw [List.isEmpty_iff.mp isAbsent]
  · rw [Value.plain, noAmount]

/-- **An amount that is written stays as it is.**  Whatever is worded for a value, a number, a text or
anything else, is worded again without a change. -/
theorem amount_of_written {value : Value} {written : Text} (returned : amount value = .ok written) :
    amount (.text written) = .ok written := by
  rw [amount] at returned
  split at returned
  · obtain rfl := Except.ok.inj returned
    rfl
  split at returned
  · rename_i number read
    obtain ⟨bare, isBare, rfl⟩ := Outcome.map_eq_ok_iff.mp returned
    by_cases finite : ∃ decimal, number = .finite decimal
    · obtain ⟨decimal, rfl⟩ := finite
      have comma : ',' ∈ Text.removeChar '€' ("€ " ++ bare) :=
        List.mem_filter.mpr ⟨List.mem_append_right _ (Amount.comma_mem_of_toText isBare), by decide⟩
      exact amount_of_noAmount (Amount.ofText?_eq_none_of_comma comma)
    · obtain ⟨isName, named⟩ := Amount.isName_of_toText isBare fun decimal same => finite ⟨decimal, same⟩
      have again : amount (.text ("€ " ++ bare)) = number.toText.map fun text : Text => "€ " ++ text := by
        rw [amount, if_neg (by simp [Value.isAbsent]), Value.plain, isName.ofText?_euro named]
      exact again.trans returned
  · rename_i noAmount
    obtain rfl := Except.ok.inj returned
    exact amount_of_noAmount noAmount

/-- A number, a signalling name with a payload, and a list. -/
theorem amount_of_written_owed :
    (amount (.int (-1234567)) = .ok "€ -1.234.567,00" ∧
        amount (.text "€ -1.234.567,00") = .ok "€ -1.234.567,00") ∧
      (amount (.text "-snan0_042 €") = .ok "€ -sNaN42" ∧
        amount (.text "€ -sNaN42") = .ok "€ -sNaN42") ∧
      (amount (.list [.null, .text "€ 5"]) = .ok "[None, '€ 5']" ∧
        amount (.text "[None, '€ 5']") = .ok "[None, '€ 5']") := by
  have number : amount (.int (-1234567)) = .ok "€ -1.234.567,00" :=
    Outcome.eq_ok_of_toOption (by decide +kernel)
  have name : amount (.text "-snan0_042 €") = .ok "€ -sNaN42" :=
    Outcome.eq_ok_of_toOption (by decide +kernel)
  have list : amount (.list [.null, .text "€ 5"]) = .ok "[None, '€ 5']" :=
    Outcome.eq_ok_of_toOption (by decide +kernel)
  exact ⟨⟨number, amount_of_written number⟩, ⟨name, amount_of_written name⟩,
    ⟨list, amount_of_written list⟩⟩

end Wording

end Covenant
