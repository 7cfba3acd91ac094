import Covenant.Calendar.Date
import Covenant.Case.Person
import Mathlib.Data.Prod.Lex
import Mathlib.Order.Bounds.Basic

/-!
# Months, birthdays and ages

Adding months to a date goes to the same day of another month, or to the last day of that month if
it is shorter.  The number of whole months from a date to a later one is the greatest number whose
addition leads no further than the later date; to an earlier one it is the least number whose
addition does not lead in front of it.  These two rules determine the number, and with it the number
of birthdays.  The calendar is taken without end on both sides.
-/

namespace Covenant

theorem isLeapYear_mod (year : Nat) : isLeapYear (year % 400) = isLeapYear year := by
  rw [isLeapYear, isLeapYear, Nat.mod_mod_of_dvd _ (by decide), Nat.mod_mod_of_dvd _ (by decide),
    Nat.mod_mod]

theorem monthLength_mod (year month : Nat) : monthLength (year % 400) month = monthLength year month := by
  simp only [monthLength, isLeapYear_mod]

theorem monthLength_le (year month : Nat) : monthLength year month ≤ 31 := by
  have february : (if isLeapYear year = true then 29 else 28) ≤ 31 := by
    split <;> decide
  unfold monthLength
  split <;> omega

theorem month_of_monthLength_pos {year month : Nat} (filled : 0 < monthLength year month) :
    1 ≤ month ∧ month ≤ 12 := by
  unfold monthLength at filled
  split at filled <;> omega

theorem monthLength_february (year : Nat) :
    monthLength year 2 = if isLeapYear year = true then 29 else 28 := rfl

/-- Only the length of February depends on the year. -/
theorem monthLength_eq {year month : Nat} (other : Nat) (notFebruary : month ≠ 2) :
    monthLength year month = monthLength other month := by
  unfold monthLength
  split <;> first | rfl | contradiction

namespace Date

/-- The number of a month, counted from the first month of the year 0. -/
def monthIndex (date : Date) : ℤ := date.year * 12 + date.month - 1

/-- The number of days of a month.  The lengths repeat after 400 years. -/
def lengthOfMonth (index : ℤ) : ℕ :=
  monthLength (index / 12 % 400).toNat ((index % 12).toNat + 1)

/-- Month and day of a date; dates are in the order of their places. -/
def place (date : Date) : ℤ ×ₗ ℕ := toLex (date.monthIndex, date.day)

/-- The place of a date after a number of months. -/
def afterMonths (date : Date) (months : ℤ) : ℤ ×ₗ ℕ :=
  toLex (date.monthIndex + months, min date.day (lengthOfMonth (date.monthIndex + months)))

/-- The place of a birthday.  That of 29 February falls on 28 February in common years. -/
def birthday (birth : Date) (number : ℤ) : ℤ ×ₗ ℕ :=
  toLex (birth.monthIndex + 12 * number,
    if birth.month = 2 ∧ birth.day = 29 ∧ isLeapYear ((birth.year + number) % 400).toNat = false
    then 28 else birth.day)

/-- A count of whole months from one date to another. -/
structure CountsMonths (months : Date → Date → ℤ) : Prop where
  past : ∀ start reference, start.place ≤ reference.place →
    IsGreatest {number | start.afterMonths number ≤ reference.place} (months start reference)
  future : ∀ start reference, reference.place < start.place →
    IsLeast {number | reference.place ≤ start.afterMonths number} (months start reference)

section Parts

variable (date : Date)

theorem valid : 1 ≤ date.day ∧ date.day ≤ monthLength date.year date.month := by
  have parts := date.exists_
  simp only [isDate, Bool.and_eq_true, decide_eq_true_eq] at parts
  exact ⟨parts.1.2, parts.2⟩

theorem month_mem : 1 ≤ date.month ∧ date.month ≤ 12 := by
  obtain ⟨least, most⟩ := date.valid
  exact month_of_monthLength_pos (least.trans most)

theorem lengthOfMonth_monthIndex :
    lengthOfMonth date.monthIndex = monthLength date.year date.month := by
  obtain ⟨least, most⟩ := date.month_mem
  have year : ((date.year : ℤ) * 12 + date.month - 1) / 12 % 400 = ((date.year % 400 : ℕ) : ℤ) := by
    omega
  have month : (((date.year : ℤ) * 12 + date.month - 1) % 12).toNat + 1 = date.month := by omega
  rw [lengthOfMonth, monthIndex, year, month, Int.toNat_natCast, monthLength_mod]

theorem day_le : date.day ≤ 31 := date.valid.2.trans (monthLength_le _ _)

/-- After no months it is the same date. -/
theorem afterMonths_zero : date.afterMonths 0 = date.place := by
  rw [afterMonths, Int.add_zero, lengthOfMonth_monthIndex, min_eq_left date.valid.2, place]

/-- More months lead no less far. -/
theorem afterMonths_mono {fewer more : ℤ} (atMost : fewer ≤ more) :
    date.afterMonths fewer ≤ date.afterMonths more := by
  rcases eq_or_lt_of_le atMost with rfl | less
  · exact le_refl _
  · rw [afterMonths, afterMonths, Prod.Lex.toLex_le_toLex]
    exact .inl (by dsimp only; omega)

/-- A birthday is twelve months after the one before, and that of 29 February falls on the last day of
the month. -/
theorem birthday_eq (number : ℤ) : date.birthday number = date.afterMonths (12 * number) := by
  obtain ⟨least, most⟩ := date.month_mem
  obtain ⟨-, inMonth⟩ := date.valid
  have year : (date.monthIndex + 12 * number) / 12 = date.year + number := by
    rw [monthIndex]
    omega
  have month : ((date.monthIndex + 12 * number) % 12).toNat + 1 = date.month := by
    rw [monthIndex]
    omega
  rw [birthday, afterMonths, lengthOfMonth, year, month]
  congr 2
  generalize ((date.year + number) % 400).toNat = other
  split_ifs with clipped
  · obtain ⟨isFebruary, isLast, isCommon⟩ := clipped
    rw [isFebruary, isLast, monthLength_february, isCommon]
    rfl
  · refine (min_eq_left ?_).symm
    by_cases isFebruary : date.month = 2
    · rw [isFebruary, monthLength_february] at inMonth ⊢
      cases leap : isLeapYear other with
      | true => exact inMonth.trans (by split <;> decide)
      | false =>
          have notLast : date.day ≠ 29 := fun isLast => clipped ⟨isFebruary, isLast, leap⟩
          have atMost : date.day ≤ 29 := inMonth.trans (by split <;> decide)
          rw [if_neg Bool.false_ne_true]
          omega
    · rwa [monthLength_eq date.year isFebruary]

end Parts

/-! ### The order of dates -/

variable {first second start reference : Date}

theorem isBefore_iff : first.isBefore second = true ↔ first.place < second.place := by
  have firstDay := first.day_le
  have secondDay := second.day_le
  rw [isBefore, decide_eq_true_eq, rank, rank, place, place, Prod.Lex.toLex_lt_toLex, monthIndex,
    monthIndex]
  omega

/-- How far a number of months leads is decided by the month, and in the same month by the day. -/
theorem afterMonths_le_iff {number : ℤ} : start.afterMonths number ≤ reference.place ↔
    number < reference.monthIndex - start.monthIndex ∨
      number = reference.monthIndex - start.monthIndex ∧
        min start.day (monthLength reference.year reference.month) ≤ reference.day := by
  rw [afterMonths, place, Prod.Lex.toLex_le_toLex]
  refine or_congr (by dsimp only; omega) ?_
  have sameMonth : start.monthIndex + number = reference.monthIndex ↔
      number = reference.monthIndex - start.monthIndex := by
    omega
  dsimp only
  rw [sameMonth]
  refine and_congr_right fun isDifference => ?_
  rw [sameMonth.mpr isDifference, lengthOfMonth_monthIndex]

theorem le_afterMonths_iff {number : ℤ} : reference.place ≤ start.afterMonths number ↔
    reference.monthIndex - start.monthIndex < number ∨
      number = reference.monthIndex - start.monthIndex ∧
        reference.day ≤ min start.day (monthLength reference.year reference.month) := by
  rw [afterMonths, place, Prod.Lex.toLex_le_toLex]
  refine or_congr (by dsimp only; omega) ?_
  have sameMonth : reference.monthIndex = start.monthIndex + number ↔
      number = reference.monthIndex - start.monthIndex := by
    omega
  dsimp only
  rw [sameMonth]
  refine and_congr_right fun isDifference => ?_
  rw [← sameMonth.mpr isDifference, lengthOfMonth_monthIndex]

theorem monthsFrom_eq (start reference : Date) : start.monthsFrom reference =
    if reference.place < start.place then
      if min start.day (monthLength reference.year reference.month) < reference.day
      then reference.monthIndex - start.monthIndex + 1 else reference.monthIndex - start.monthIndex
    else
      if reference.day < min start.day (monthLength reference.year reference.month)
      then reference.monthIndex - start.monthIndex - 1 else reference.monthIndex - start.monthIndex := by
  have difference : ((reference.year : ℤ) - start.year) * 12 + ((reference.month : ℤ) - start.month) =
      reference.monthIndex - start.monthIndex := by
    rw [monthIndex, monthIndex]
    omega
  simp only [monthsFrom, difference, isBefore_iff]

/-- The months between dates are counted by the two rules. -/
theorem countsMonths_monthsFrom : CountsMonths monthsFrom where
  past start reference inOrder := by
    rw [monthsFrom_eq, if_neg inOrder.not_gt]
    generalize isReached : min start.day (monthLength reference.year reference.month) = reached
    constructor
    · rw [Set.mem_ofPred_eq, afterMonths_le_iff, isReached]
      split_ifs <;> omega
    · intro number member
      rw [Set.mem_ofPred_eq, afterMonths_le_iff, isReached] at member
      split_ifs <;> omega
  future start reference inFuture := by
    rw [monthsFrom_eq, if_pos inFuture]
    generalize isReached : min start.day (monthLength reference.year reference.month) = reached
    constructor
    · rw [Set.mem_ofPred_eq, le_afterMonths_iff, isReached]
      split_ifs <;> omega
    · intro number member
      rw [Set.mem_ofPred_eq, le_afterMonths_iff, isReached] at member
      split_ifs <;> omega

namespace CountsMonths

variable {months others : Date → Date → ℤ}

/-- The two rules determine the number of months. -/
theorem unique (counts : CountsMonths months) (countsToo : CountsMonths others) : months = others := by
  funext start reference
  rcases le_or_gt start.place reference.place with past | future
  · exact (counts.past start reference past).unique (countsToo.past start reference past)
  · exact (counts.future start reference future).unique (countsToo.future start reference future)

variable (counts : CountsMonths months)
include counts

/-- The months that lead no further than a later date are those up to the number counted. -/
theorem afterMonths_le_iff (past : start.place ≤ reference.place) {number : ℤ} :
    start.afterMonths number ≤ reference.place ↔ number ≤ months start reference := by
  obtain ⟨reaches, most⟩ := counts.past start reference past
  refine ⟨fun member => most member, fun few => ?_⟩
  exact (start.afterMonths_mono few).trans reaches

theorem nonneg (past : start.place ≤ reference.place) : 0 ≤ months start reference := by
  rwa [← counts.afterMonths_le_iff past, afterMonths_zero]

theorem nonpos (future : reference.place < start.place) : months start reference ≤ 0 := by
  refine (counts.future start reference future).2 ?_
  rw [Set.mem_ofPred_eq, afterMonths_zero]
  exact future.le

/-- Months are never fewer at a later date, in front of the start as well as behind it. -/
theorem mono (inOrder : first.place ≤ second.place) : months start first ≤ months start second := by
  rcases le_or_gt start.place first.place with past | future
  · refine (counts.past start first past).mono (counts.past start second (past.trans inOrder)) ?_
    exact fun number reaches => le_trans reaches inOrder
  · rcases le_or_gt start.place second.place with past | stillFuture
    · exact (counts.nonpos future).trans (counts.nonneg past)
    · refine (counts.future start second stillFuture).mono (counts.future start first future) ?_
      exact fun number reaches => le_trans inOrder reaches

end CountsMonths

end Date

end Covenant

/-!
## Ages

The age of a child goes up by one on every birthday.  So a child is a minor up to the birthday of
maturity, and no one is a minor again at a later date.
-/

namespace Covenant

namespace Date.CountsMonths

variable {months : Date → Date → ℤ} {birth first second reference : Date}

/-- The years that have passed are the birthdays that have been. -/
theorem birthday_le_iff (counts : CountsMonths months) (born : birth.place ≤ reference.place)
    {number : ℤ} :
    birth.birthday number ≤ reference.place ↔ number ≤ (months birth reference).tdiv 12 := by
  rw [birthday_eq, counts.afterMonths_le_iff born,
    Int.tdiv_eq_ediv_of_nonneg (counts.nonneg born)]
  omega

theorem years_mono (counts : CountsMonths months) (inOrder : first.place ≤ second.place) :
    (months birth first).tdiv 12 ≤ (months birth second).tdiv 12 :=
  Int.tdiv_le_tdiv (by decide) (counts.mono inOrder)

end Date.CountsMonths

namespace Child

variable {months : Date → Date → ℤ} {child : Child} {birth first second reference : Date}

theorem age?_eq (counts : Date.CountsMonths months) (child : Child) (reference : Date) :
    child.age? reference = child.birthDate.map fun birth => (months birth reference).tdiv 12 := by
  rw [counts.unique Date.countsMonths_monthsFrom]
  rfl

/-- Age and minority at a later date: the age is no less, and who was no minor is none. -/
theorem isMinor_of_later {maturityAge : ℤ} (inOrder : first.place ≤ second.place)
    (minor : child.isMinor maturityAge second = true) : child.isMinor maturityAge first = true := by
  cases isBirth : child.birthDate with
  | none => simp [isMinor, age?, isBirth] at minor
  | some birth =>
      have atMost : (birth.monthsFrom first).tdiv 12 ≤ (birth.monthsFrom second).tdiv 12 :=
        Date.countsMonths_monthsFrom.years_mono inOrder
      simp only [isMinor, age?_eq Date.countsMonths_monthsFrom, isBirth, Option.map_some,
        Option.any_some, decide_eq_true_eq] at minor ⊢
      omega

/-- **Ages go up on birthdays.**  However whole months are counted by the rules for the greatest and
the least number, the age is the number of months in whole years.  From birth on it is the number of
the last birthday that is not after the reference date, so that a child is a minor in front of the
birthday of maturity and at no other time.  At a later date, before birth or after, the age is no
less, and a child that was no minor is none. -/
theorem age_steps_on_birthdays (counts : Date.CountsMonths months) (child : Child) :
    (∀ reference, child.age? reference =
      child.birthDate.map fun birth => (months birth reference).tdiv 12) ∧
    (∀ birth ∈ child.birthDate, ∀ reference : Date, birth.place ≤ reference.place →
      (∃ age, child.age? reference = some age ∧
        IsGreatest {number | birth.birthday number ≤ reference.place} age) ∧
      ∀ maturityAge, child.isMinor maturityAge reference = true ↔
        reference.place < birth.birthday maturityAge) ∧
    ∀ first second : Date, first.place ≤ second.place →
      (∀ age ∈ child.age? first, ∃ later ∈ child.age? second, age ≤ later) ∧
      ∀ maturityAge, child.isMinor maturityAge first = false →
        child.isMinor maturityAge second = false := by
  refine ⟨child.age?_eq counts, fun birth isBirth reference born => ?_,
    fun first second inOrder => ⟨fun age isAge => ?_, fun maturityAge adult => ?_⟩⟩
  · have isAge : child.age? reference = some ((months birth reference).tdiv 12) := by
      rw [child.age?_eq counts, isBirth, Option.map_some]
    refine ⟨⟨_, isAge, ?_, fun number member => ?_⟩, fun maturityAge => ?_⟩
    · exact (counts.birthday_le_iff born).mpr (Int.le_refl _)
    · exact (counts.birthday_le_iff born).mp member
    · rw [isMinor, isAge, ← not_le, counts.birthday_le_iff born]
      simp
  · rw [child.age?_eq counts] at isAge ⊢
    obtain ⟨birth, isBirth, rfl⟩ := Option.map_eq_some_iff.mp isAge
    exact ⟨_, Option.map_eq_some_iff.mpr ⟨birth, isBirth, rfl⟩, counts.years_mono inOrder⟩
  · rw [Bool.eq_false_iff] at adult ⊢
    exact mt (isMinor_of_later inOrder) adult

/-- A child that was born on 29 February. -/
def leapChild : Child where
  id := none
  firstNames := .text "Emma"
  surname := .text "Vries"
  insertion := .text "de"
  callName := .text []
  gender := .text []
  birthDate := some { year := 2004, month := 2, day := 29 }
  birthPlace := .text []
  recognitionDate := none

/-- The child is of age on 28 February of a common year. -/
theorem age_steps_on_birthdays_leapChild :
    let birth : Date := { year := 2004, month := 2, day := 29 }
    let eve : Date := { year := 2022, month := 2, day := 27 }
    let day : Date := { year := 2022, month := 2, day := 28 }
    Date.CountsMonths Date.monthsFrom ∧ birth ∈ leapChild.birthDate ∧
      (birth.place ≤ eve.place ∧ IsGreatest {number | birth.birthday number ≤ eve.place} 17 ∧
        (leapChild.isMinor 18 eve = true ∧ eve.place < birth.birthday 18)) ∧
      eve.place ≤ day.place ∧ leapChild.age? eve = some 17 ∧ leapChild.age? day = some 18 ∧
      leapChild.isMinor 18 day = false ∧
      leapChild.isMinor 18 { year := 9999, month := 1, day := 1 } = false := by
  intro birth eve day
  obtain ⟨-, atBirthdays, later⟩ := age_steps_on_birthdays Date.countsMonths_monthsFrom leapChild
  have born : birth.place ≤ eve.place := by decide
  obtain ⟨⟨age, isAge, greatest⟩, minor⟩ := atBirthdays birth rfl eve born
  have isSeventeen : leapChild.age? eve = some 17 := by decide
  obtain rfl := Option.some.inj (isSeventeen.symm.trans isAge)
  have isMinor : leapChild.isMinor 18 eve = true := by decide
  have adult : leapChild.isMinor 18 day = false := by decide
  refine ⟨Date.countsMonths_monthsFrom, rfl, ⟨born, greatest, isMinor, (minor 18).mp isMinor⟩,
    by decide, isAge, by decide, adult, ?_⟩
  exact (later day { year := 9999, month := 1, day := 1 } (by decide)).2 18 adult

end Child

end Covenant
