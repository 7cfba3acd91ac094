import Covenant.Condition.Comparison
import Covenant.Proofs.Number.Decimal
import Covenant.Proofs.Text.Upper

/-!
# Numbers in any letter case

A text denotes the same number as its lower case.  Making the letters of ASCII small changes no number,
and the other characters of numbers have no letter case.  Where a text has a character that no number
has, so has its lower case: beyond ASCII this is read off the tables.
-/

namespace Covenant

/-! ### Small letters of ASCII -/

theorem isNumeralSpace_toLower (c : Char) : isNumeralSpace c.toLower = isNumeralSpace c :=
  apply_toLower isNumeralSpace (by decide) c

theorem isAsciiDigit_toLower (c : Char) : isAsciiDigit c.toLower = isAsciiDigit c :=
  apply_toLower isAsciiDigit (by decide) c

theorem digitValue?_toLower (c : Char) : digitValue? c.toLower = digitValue? c :=
  apply_toLower digitValue? (by decide) c

theorem toLower_eq_iff {mark : Char} (noLetter : mark.isAlpha = false) (c : Char) :
    c.toLower = mark ↔ c = mark := by
  have letters : ∀ index < 26, (Char.ofNat (0x41 + index)).isAlpha = true ∧
      (Char.ofNat (0x41 + index)).toLower.isAlpha = true := by decide
  have same := apply_toLower (fun c => decide (c = mark)) (fun index inRow => ?_) c
  · simpa using same
  · have isOther {letter : Char} (isLetter : letter.isAlpha = true) : letter ≠ mark := by
      rintro rfl
      rw [isLetter] at noLetter
      cases noLetter
    simp [isOther (letters index inRow).1, isOther (letters index inRow).2]

theorem Text.removeChar_map_toLower {mark : Char} (noLetter : mark.isAlpha = false) (text : Text) :
    removeChar mark (text.map Char.toLower) = (removeChar mark text).map Char.toLower := by
  rw [removeChar, removeChar, List.filter_map]
  congr 1
  refine List.filter_congr fun c _ => ?_
  simp [toLower_eq_iff noLetter]

theorem contains_map_toLower {mark : Char} (noLetter : mark.isAlpha = false) (text : Text) :
    (text.map Char.toLower).contains mark = text.contains mark := by
  rw [Bool.eq_iff_iff, List.contains_iff_mem, List.contains_iff_mem, List.mem_map]
  simp [toLower_eq_iff noLetter]

theorem replaceChar_comma_map_toLower (text : Text) : Text.replaceChar ',' "." (text.map Char.toLower) =
    (Text.replaceChar ',' "." text).map Char.toLower := by
  rw [Text.replaceChar, Text.replaceChar, List.flatMap_map, List.map_flatMap]
  refine List.flatMap_congr fun c _ => ?_
  have isComma := toLower_eq_iff (show ','.isAlpha = false by decide) c
  by_cases comma : c = ','
  · rw [if_pos (isComma.mpr comma), if_pos comma]
    rfl
  · rw [if_neg (mt isComma.mp comma), if_neg comma]
    rfl

theorem plainNumeral_map_toLower (text : Text) :
    plainNumeral (text.map Char.toLower) = (plainNumeral text).map Char.toLower := by
  have noLetter : ∀ mark ∈ ([' ', '€', ',', '.'] : Text), mark.isAlpha = false :=
    Text.forall_mem_of_all (by decide)
  simp only [plainNumeral, Text.trim_map_toLower, Text.removeChar_map_toLower (noLetter '€' (by simp)),
    Text.removeChar_map_toLower (noLetter ' ' (by simp)), contains_map_toLower (noLetter ',' (by simp)),
    contains_map_toLower (noLetter '.' (by simp)), Text.removeChar_map_toLower (noLetter '.' (by simp))]
  split
  · rw [← replaceChar_comma_map_toLower, apply_ite (List.map Char.toLower)]
  · rfl

theorem numeralOf_map_toLower (text : Text) :
    numeralOf (text.map Char.toLower) = (numeralOf text).map Char.toLower := by
  have normalized : Text.normalizeDigits (text.map Char.toLower) =
      (Text.normalizeDigits text).map Char.toLower := by
    rw [Text.normalizeDigits, Text.normalizeDigits, List.map_map, List.map_map]
    refine List.map_congr_left fun c _ => ?_
    have beyond : (0x80 ≤ c.toLower.toNat) = (0x80 ≤ c.toNat) :=
      apply_toLower (fun c => 0x80 ≤ c.toNat) (by decide) c
    simp only [Function.comp_apply, digitValue?_toLower, isBlank_toLower, beyond]
    cases isValue : digitValue? c with
    | none =>
        dsimp only
        split <;> rfl
    | some value => exact (toLower_asciiDigit value (digitValue?_lt isValue)).symm
  have space : isNumeralSpace ∘ Char.toLower = isNumeralSpace := funext isNumeralSpace_toLower
  rw [numeralOf, numeralOf, normalized, List.dropWhile_map, space]

theorem dropUnderscores?_map_toLower (before : Option Char) (text : Text) :
    dropUnderscores? (before.map Char.toLower) (text.map Char.toLower) =
      (dropUnderscores? before text).map (List.map Char.toLower) := by
  have isUnderscore (c : Char) : c.toLower = '_' ↔ c = '_' := toLower_eq_iff (by decide) c
  have afterUnderscore : (before.map Char.toLower = some '_') = (before = some '_') := by
    cases before <;> simp [isUnderscore]
  induction text generalizing before with
  | nil =>
      rw [List.map_nil, dropUnderscores?, dropUnderscores?]
      simp only [afterUnderscore]
      split <;> rfl
  | cons c rest ih =>
      have later := ih (some c) (by simp [isUnderscore])
      have afterDigit : (before.map Char.toLower).any isAsciiDigit = before.any isAsciiDigit := by
        cases before <;> simp [isAsciiDigit_toLower]
      rw [Option.map_some] at later
      rw [List.map_cons, dropUnderscores?, dropUnderscores?, later]
      simp only [afterUnderscore, isUnderscore, isAsciiDigit_toLower, afterDigit]
      split
      · split <;> rfl
      · split
        · rfl
        · cases dropUnderscores? (some c) rest <;> rfl

/-! ### Numerals and names -/

theorem splitSign_map_toLower (text : Text) : Decimal.splitSign (text.map Char.toLower) =
    ((Decimal.splitSign text).1, (Decimal.splitSign text).2.map Char.toLower) := by
  cases text with
  | nil => rfl
  | cons c rest =>
      have isMinus : c.toLower = '-' ↔ c = '-' := toLower_eq_iff (by decide) c
      have isPlus : c.toLower = '+' ↔ c = '+' := toLower_eq_iff (by decide) c
      by_cases minus : c = '-'
      · subst minus
        rfl
      by_cases plus : c = '+'
      · subst plus
        rfl
      rw [splitSign_of_unsigned minus plus, List.map_cons,
        splitSign_of_unsigned (mt isMinus.mp minus) (mt isPlus.mp plus)]

theorem ofName?_map_toLower (text : Text) :
    Binary64.ofName? (text.map Char.toLower) = Binary64.ofName? text := by
  have twice : Char.toLower ∘ Char.toLower = Char.toLower := funext (apply_toLower Char.toLower (by decide))
  rw [Binary64.ofName?, Binary64.ofName?, splitSign_map_toLower]
  simp only [List.map_map, twice]

theorem exponentOf?_map_toLower (text : Text) :
    Decimal.exponentOf? (text.map Char.toLower) = Decimal.exponentOf? text := by
  cases text with
  | nil => rfl
  | cons mark rest =>
      have isMark := apply_toLower (fun c => decide (c = 'e') || decide (c = 'E')) (by decide) mark
      have digit : isAsciiDigit ∘ Char.toLower = isAsciiDigit := funext isAsciiDigit_toLower
      rw [List.map_cons, Decimal.exponentOf?, Decimal.exponentOf?, splitSign_map_toLower]
      simp only [isMark, List.isEmpty_map, List.all_map, digit]
      refine if_congr Iff.rfl (ite_congr rfl (fun row => ?_) fun _ => rfl) rfl
      simp only [Bool.and_eq_true, List.all_eq_true] at row
      rw [map_toLower_digits row.2]

theorem splitFraction_of_ne {c : Char} (noPoint : c ≠ '.') (rest : Text) :
    Decimal.splitFraction (c :: rest) = ([], c :: rest) := by
  unfold Decimal.splitFraction
  split
  · rename_i same
    exact absurd (List.cons.inj same).1 noPoint
  · rfl

theorem splitFraction_map_toLower (text : Text) : Decimal.splitFraction (text.map Char.toLower) =
    ((Decimal.splitFraction text).1.map Char.toLower, (Decimal.splitFraction text).2.map Char.toLower) := by
  have digit : isAsciiDigit ∘ Char.toLower = isAsciiDigit := funext isAsciiDigit_toLower
  cases text with
  | nil => rfl
  | cons c rest =>
      have isPoint : c.toLower = '.' ↔ c = '.' := toLower_eq_iff (by decide) c
      by_cases point : c = '.'
      · subst point
        rw [List.map_cons, isPoint.mpr rfl, Decimal.splitFraction, Decimal.splitFraction,
          List.span_eq_takeWhile_dropWhile, List.span_eq_takeWhile_dropWhile, List.takeWhile_map,
          List.dropWhile_map, digit]
      · rw [splitFraction_of_ne point, List.map_cons,
          splitFraction_of_ne (mt isPoint.mp point)]
        rfl

theorem ofNumeral?_map_toLower (text : Text) :
    Decimal.ofNumeral? (text.map Char.toLower) = Decimal.ofNumeral? text := by
  have digit : isAsciiDigit ∘ Char.toLower = isAsciiDigit := funext isAsciiDigit_toLower
  have row (digits : Text) : (digits.takeWhile isAsciiDigit).map Char.toLower =
      digits.takeWhile isAsciiDigit :=
    map_toLower_digits fun c member => List.mem_takeWhile_imp member
  have fractionRow (rest : Text) : (Decimal.splitFraction rest).1.map Char.toLower =
      (Decimal.splitFraction rest).1 := by
    unfold Decimal.splitFraction
    split
    · rw [List.span_eq_takeWhile_dropWhile, row]
    · rfl
  rw [Decimal.ofNumeral?, Decimal.ofNumeral?, splitSign_map_toLower]
  simp only [List.span_eq_takeWhile_dropWhile, List.takeWhile_map, List.dropWhile_map, digit, row,
    splitFraction_map_toLower, fractionRow, exponentOf?_map_toLower]

theorem ofText?_map_toLower (text : Text) :
    Binary64.ofText? (text.map Char.toLower) = Binary64.ofText? text := by
  have space : isNumeralSpace ∘ Char.toLower = isNumeralSpace := funext isNumeralSpace_toLower
  have kept := dropUnderscores?_map_toLower none
    ((numeralOf text).reverse.dropWhile isNumeralSpace).reverse
  rw [Option.map_none] at kept
  simp only [Binary64.ofText?, numeralOf_map_toLower, ← List.map_reverse, List.dropWhile_map, space, kept,
    Option.bind_eq_bind, Option.bind_map, Function.comp_def, ofName?_map_toLower, ofNumeral?_map_toLower]

theorem numberOfText?_map_toLower (text : Text) :
    numberOfText? (text.map Char.toLower) = numberOfText? text := by
  rw [numberOfText?, numberOfText?, plainNumeral_map_toLower, ofText?_map_toLower]

/-! ### Characters of numbers -/

/-- The signs and letters of numbers. -/
def numberMarks : Text := "€+-.,_einftyaEINFTYA"

/-- A digit of any script, white space, or a sign or letter of numbers. -/
def IsNumberChar (c : Char) : Prop := isDigit c = true ∨ isBlank c = true ∨ c ∈ numberMarks

instance : DecidablePred IsNumberChar := fun c =>
  inferInstanceAs (Decidable (isDigit c = true ∨ isBlank c = true ∨ c ∈ numberMarks))

section Characters

variable {text : Text} {c : Char}

theorem isNumberChar_of_ofName? {number : Binary64} (named : Binary64.ofName? text = some number)
    (member : c ∈ text) : IsNumberChar c := by
  have letter {name : Text} (letters : ∀ d ∈ name, d ∈ numberMarks)
      (isName : (Decimal.splitSign text).2.map Char.toLower = name)
      (unsigned : c ∈ (Decimal.splitSign text).2) : c ∈ numberMarks := by
    have small : c.toLower ∈ numberMarks := letters _ (isName ▸ List.mem_map_of_mem unsigned)
    have same := apply_toLower (fun c => decide (c ∈ numberMarks)) (by decide) c
    simpa [small] using same
  refine .inr (.inr ?_)
  rcases Decimal.mem_splitSign member with rfl | rfl | unsigned
  · decide
  · decide
  simp only [Binary64.ofName?] at named
  split at named
  · rename_i isInfinite
    simp only [Bool.or_eq_true, decide_eq_true_eq] at isInfinite
    rcases isInfinite with short | long
    · exact letter (Text.forall_mem_of_all (by decide)) short unsigned
    · exact letter (Text.forall_mem_of_all (by decide)) long unsigned
  · split at named
    · rename_i isNan
      exact letter (Text.forall_mem_of_all (by decide)) isNan unsigned
    · cases named

theorem mem_of_dropUnderscores? {before : Option Char} {numeral : Text}
    (kept : dropUnderscores? before text = some numeral) (member : c ∈ text) (other : c ≠ '_') :
    c ∈ numeral := by
  induction text generalizing before numeral with
  | nil => cases member
  | cons d rest ih =>
      rw [dropUnderscores?] at kept
      split at kept
      · rename_i underscore
        split at kept
        · exact ih kept ((List.mem_cons.mp member).resolve_left fun same => other (same.trans underscore))
        · cases kept
      · split at kept
        · cases kept
        · obtain ⟨tail, keptLater, rfl⟩ := Option.map_eq_some_iff.mp kept
          rcases List.mem_cons.mp member with rfl | later
          · exact List.mem_cons_self
          · exact List.mem_cons_of_mem _ (ih keptLater later)

theorem isBlank_of_isNumeralSpace (space : isNumeralSpace c = true) : isBlank c = true := by
  simp only [isNumeralSpace, Bool.or_eq_true, decide_eq_true_eq, Bool.and_eq_true] at space
  rcases space with rfl | ⟨low, high⟩
  · decide
  · have low : 0x9 ≤ c.toNat := low
    have high : c.toNat ≤ 0xD := high
    simp [isBlank, low, high, show c.toNat < 0x80 by omega]

/-- Characters that are not of numbers are kept where a numeral is prepared. -/
theorem mem_numeralOf (member : c ∈ text) (foreign : ¬ IsNumberChar c) : c ∈ numeralOf text := by
  simp only [IsNumberChar, not_or, Bool.not_eq_true] at foreign
  obtain ⟨noDigit, notBlank, -⟩ := foreign
  have noValue : digitValue? c = none := by simpa [isDigit] using noDigit
  have normalized : c ∈ Text.normalizeDigits text :=
    List.mem_map.mpr ⟨c, member, by simp [noValue, notBlank]⟩
  refine Decimal.mem_dropWhile_of_mem normalized (Bool.eq_false_iff.mpr fun space => ?_)
  rw [isBlank_of_isNumeralSpace space] at notBlank
  cases notBlank

theorem isNumberChar_of_ofText? {number : Binary64} (read : Binary64.ofText? text = some number)
    (member : c ∈ text) : IsNumberChar c := by
  by_contra foreign
  have noSpace : isNumeralSpace c = false :=
    Bool.eq_false_iff.mpr fun space => foreign (.inr (.inl (isBlank_of_isNumeralSpace space)))
  have noUnderscore : c ≠ '_' := by
    rintro rfl
    exact foreign (by decide)
  obtain ⟨numeral, kept, named⟩ := Option.bind_eq_some_iff.mp read
  have inNumeral : c ∈ numeral := by
    refine mem_of_dropUnderscores? kept (List.mem_reverse.mpr ?_) noUnderscore
    exact Decimal.mem_dropWhile_of_mem (List.mem_reverse.mpr (mem_numeralOf member foreign)) noSpace
  split at named
  · rename_i isNamed
    exact foreign (isNumberChar_of_ofName? isNamed inNumeral)
  · obtain ⟨decimal, isDecimal, -⟩ := Option.map_eq_some_iff.mp named
    have marks : ∀ mark ∈ Decimal.numeralMarks, IsNumberChar mark :=
      Text.forall_mem_of_all (by decide)
    refine foreign ?_
    by_cases digit : isAsciiDigit c = true
    · exact .inl (by simp [isDigit, digitValue?_of_isDigit digit])
    · exact marks c (Decimal.mem_numeralMarks_of_ofNumeral? isDecimal inNumeral (by simpa using digit))

/-- A text that denotes a number has only characters of numbers. -/
theorem isNumberChar_of_numberOfText? {number : Binary64} (read : numberOfText? text = some number)
    (member : c ∈ text) : IsNumberChar c := by
  by_contra foreign
  have separators : ∀ mark ∈ ([' ', '€', ',', '.'] : Text), IsNumberChar mark :=
    Text.forall_mem_of_all (by decide)
  have noSeparator : ∀ mark ∈ ([' ', '€', ',', '.'] : Text), c ≠ mark := by
    rintro mark isSeparator rfl
    exact foreign (separators c isSeparator)
  simp only [List.forall_mem_cons] at noSeparator
  obtain ⟨noSpace, noEuro, noComma, noPoint, -⟩ := noSeparator
  have notBlank : isBlank c = false := Bool.eq_false_iff.mpr fun blank => foreign (.inr (.inl blank))
  refine foreign (isNumberChar_of_ofText? read ?_)
  have bare : c ∈ Text.removeChar ' ' (Text.removeChar '€' (Text.trim text)) := by
    simp [Text.removeChar, Text.mem_trim_of_not_blank member notBlank, noSpace, noEuro]
  simp only [plainNumeral]
  split
  · refine List.mem_flatMap.mpr ⟨c, ?_, by simp [noComma]⟩
    split
    · exact List.mem_filter.mpr ⟨bare, by simp [noPoint]⟩
    · exact bare
  · exact bare

end Characters

/-! ### Letter case of the characters of numbers -/

namespace CaseTable

/-- The code points beyond ASCII of the euro sign, white space and digits. -/
def numberRanges : List (Nat × Nat) :=
  [(0x20AC, 0x20AC), (0x85, 0x85), (0xA0, 0xA0), (0x1680, 0x1680), (0x2000, 0x200A), (0x2028, 0x2028),
    (0x2029, 0x2029), (0x202F, 0x202F), (0x205F, 0x205F), (0x3000, 0x3000)] ++
  digitZeros.map fun start => (start, start + 9)

theorem exists_numberRange {c : Char} (isNumber : IsNumberChar c) (beyond : 0x80 ≤ c.toNat) :
    ∃ range ∈ numberRanges, range.1 ≤ c.toNat ∧ c.toNat ≤ range.2 := by
  rcases isNumber with digit | blank | isMark
  · simp only [isDigit, digitValue?, if_neg (Nat.not_lt.mpr beyond), Option.isSome_map,
      List.find?_isSome, Bool.and_eq_true, decide_eq_true_eq] at digit
    obtain ⟨start, isStart, low, high⟩ := digit
    exact ⟨(start, start + 9), List.mem_append_right _ (List.mem_map.mpr ⟨start, isStart, rfl⟩), low,
      by omega⟩
  · simp only [isBlank, if_neg (Nat.not_lt.mpr beyond), Bool.or_eq_true, beq_iff_eq, Bool.and_eq_true,
      decide_eq_true_eq] at blank
    simp only [numberRanges, List.mem_append, or_and_right, exists_or]
    refine .inl ?_
    simp
    omega
  · have marks : ∀ mark ∈ numberMarks, mark.toNat < 0x80 ∨ mark = '€' :=
      Text.forall_mem_of_all (by decide)
    obtain ascii | rfl := marks c isMark
    · omega
    · exact ⟨(0x20AC, 0x20AC), by simp [numberRanges], by decide⟩

/-- The image of a run is beyond ASCII, or it is a single character that no number has. -/
def Shift.leavesNumbers (shift : Shift) : Bool :=
  Nat.ble 0x80 (shift.image shift.first) ||
    shift.first == shift.last && !decide (IsNumberChar (Char.ofNat (shift.image shift.first)))

theorem leavesNumbers_lowerShifts : lowerShifts.all Shift.leavesNumbers = true := by
  decide +kernel

/-- No letter of the table, and none of their small letters, is a character of numbers. -/
theorem misses_numberRanges :
    lowerShifts.all (fun shift => numberRanges.all fun (first, last) => shift.misses first last &&
      (last.blt (shift.image shift.first) || (shift.image shift.last).blt first)) = true := by
  decide +kernel

variable {shift : Shift} {code : Nat}

theorem covers_eq_false_of_isNumberChar {c : Char} (isNumber : IsNumberChar c) (beyond : 0x80 ≤ c.toNat)
    (member : shift ∈ lowerShifts) : shift.covers c.toNat = false := by
  obtain ⟨range, isRange, low, high⟩ := exists_numberRange isNumber beyond
  have missed := List.all_eq_true.mp (List.all_eq_true.mp misses_numberRanges shift member) range isRange
  rw [Bool.and_eq_true] at missed
  exact covers_eq_false_of_misses missed.1 low high

theorem not_isNumberChar_image (member : shift ∈ lowerShifts) (covers : shift.covers code = true) :
    ¬ IsNumberChar (Char.ofNat (shift.image code)) := by
  have leaves := List.all_eq_true.mp leavesNumbers_lowerShifts shift member
  simp only [Shift.covers, Bool.and_eq_true, decide_eq_true_eq] at covers
  simp only [Shift.leavesNumbers, Bool.or_eq_true, Nat.ble_eq, Bool.and_eq_true, beq_iff_eq,
    Bool.not_eq_true', decide_eq_false_iff_not] at leaves
  rcases leaves with beyond | ⟨single, foreign⟩
  · have low : shift.image shift.first ≤ shift.image code := by simp only [Shift.image]; omega
    have high : shift.image code ≤ shift.image shift.last := by simp only [Shift.image]; omega
    by_cases valid : (shift.image code).isValidChar
    · have sameCode : (Char.ofNat (shift.image code)).toNat = shift.image code := Text.toNat_ofNat valid
      intro isNumber
      obtain ⟨range, isRange, atLeast, atMost⟩ := exists_numberRange isNumber (by omega)
      have missed :=
        List.all_eq_true.mp (List.all_eq_true.mp misses_numberRanges shift member) range isRange
      simp only [Bool.and_eq_true, Bool.or_eq_true, Nat.blt_eq] at missed
      omega
    · rw [Char.ofNat, dif_neg valid]
      decide
  · obtain rfl : code = shift.first := by omega
    exact foreign

end CaseTable

/-- A character of numbers is one character in lower case. -/
theorem IsNumberChar.lowerChar_eq {c : Char} (isNumber : IsNumberChar c) :
    lowerChar c = [c.toLower] := by
  rw [lowerChar]
  split
  · rfl
  · rename_i notAscii
    have beyond : 0x80 ≤ c.toNat := Nat.not_lt.mp notAscii
    have noDot : c ≠ 'İ' := by
      rintro rfl
      exact absurd isNumber (by decide)
    have own : c.toLower = c := dif_neg fun capital => by
      simp [UInt32.le_iff_toNat_le] at capital
      omega
    rw [if_neg noDot, own, CaseTable.shifted_eq_self fun shift member =>
      CaseTable.covers_eq_false_of_isNumberChar isNumber beyond member, Char.ofNat_toNat]

/-- A character that no number has keeps being one in lower case. -/
theorem exists_mem_lowerChar {c : Char} (foreign : ¬ IsNumberChar c) :
    ∃ d ∈ lowerChar c, ¬ IsNumberChar d := by
  rw [lowerChar]
  split
  · rename_i ascii
    have small : ∀ code < 0x80, ¬ IsNumberChar (Char.ofNat code) →
        ¬ IsNumberChar (Char.ofNat code).toLower := by
      decide +kernel
    exact ⟨c.toLower, by simp, Text.ascii_cases ascii small foreign⟩
  · split
    · exact ⟨'\u0307', by simp, by decide⟩
    · refine ⟨_, List.mem_singleton_self _, ?_⟩
      rw [CaseTable.shifted]
      split
      · rename_i shift found
        have covers : shift.covers c.toNat = true := by simpa using List.find?_some found
        exact CaseTable.not_isNumberChar_image (List.mem_of_find?_eq_some found) covers
      · rwa [Char.ofNat_toNat]

/-! ### Lower case -/

namespace Text

variable {text : Text}

theorem lower_of_isNumberChar (numbers : ∀ c ∈ text, IsNumberChar c) :
    lower text = text.map Char.toLower := by
  have noSigma : 'Σ' ∉ text := fun member => absurd (numbers 'Σ' member) (by decide)
  rw [lower_eq_flatMap noSigma, List.map_eq_flatMap]
  exact List.flatMap_congr fun c member => (numbers c member).lowerChar_eq

theorem exists_mem_lowerAfter {c : Char} (member : c ∈ text) (foreign : ¬ IsNumberChar c)
    (before : Text) : ∃ d ∈ lowerAfter before text, ¬ IsNumberChar d := by
  induction text generalizing before with
  | nil => cases member
  | cons e rest ih =>
      rw [lowerAfter]
      rcases List.mem_cons.mp member with rfl | later
      · split
        · refine ⟨_, List.mem_append_left _ (List.mem_singleton_self _), ?_⟩
          split <;> decide
        · obtain ⟨d, isForm, noNumber⟩ := exists_mem_lowerChar foreign
          exact ⟨d, List.mem_append_left _ isForm, noNumber⟩
      · obtain ⟨d, isForm, noNumber⟩ := ih later (e :: before)
        exact ⟨d, List.mem_append_right _ isForm, noNumber⟩

end Text

/-- A text denotes the number that its lower case denotes. -/
theorem numberOfText?_lower (text : Text) : numberOfText? (Text.lower text) = numberOfText? text := by
  by_cases numbers : ∀ c ∈ text, IsNumberChar c
  · rw [Text.lower_of_isNumberChar numbers, numberOfText?_map_toLower]
  · obtain ⟨c, member, foreign⟩ : ∃ c ∈ text, ¬ IsNumberChar c := by simpa using numbers
    obtain ⟨d, inLower, foreignLower⟩ : ∃ d ∈ Text.lower text, ¬ IsNumberChar d :=
      Text.exists_mem_lowerAfter member foreign []
    have noNumber {given : Text} {e : Char} (isMember : e ∈ given) (foreign : ¬ IsNumberChar e) :
        numberOfText? given = none :=
      Option.eq_none_iff_forall_ne_some.mpr fun number read =>
        foreign (isNumberChar_of_numberOfText? read isMember)
    rw [noNumber member foreign, noNumber inLower foreignLower]

end Covenant
