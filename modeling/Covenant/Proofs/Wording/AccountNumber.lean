import Covenant.Proofs.Text.Pieces
import Covenant.Proofs.Text.Upper
import Covenant.Wording.Person

/-!
# Account numbers in groups of four

An account number is written without white space, in upper case and in groups of four.  The spaces
between the groups are the only white space that is written, so the number can be read back from them,
and a number that is written again stays as it is.
-/

namespace Covenant.Wording

/-- What is grouped: the number without white space, in upper case. -/
def bareNumber (number : Text) : Text := Text.upper (number.filter fun c => !isBlank c)

theorem accountNumber_eq (number : Text) :
    accountNumber number = Text.groupLeft ' ' 4 (bareNumber number) :=
  rfl

theorem bareNumber_eq_filter (number : Text) :
    bareNumber number = (Text.upper number).filter fun c => !isBlank c :=
  (Text.filter_upper number).symm

theorem not_isBlank_of_mem_bareNumber {number : Text} {c : Char} (member : c ∈ bareNumber number) :
    isBlank c = false := by
  rw [bareNumber_eq_filter] at member
  simpa using (List.mem_filter.mp member).2

/-- Bare numbers are their own bare form. -/
theorem bareNumber_bareNumber (number : Text) : bareNumber (bareNumber number) = bareNumber number := by
  have noBlank : (bareNumber number).filter (fun c => !isBlank c) = bareNumber number :=
    List.filter_eq_self.mpr fun c member => by simp [not_isBlank_of_mem_bareNumber member]
  rw [bareNumber, noBlank, bareNumber, Text.upper_upper]

/-- Spaces are left out anyway. -/
theorem bareNumber_removeChar (number : Text) : bareNumber (Text.removeChar ' ' number) = bareNumber number := by
  have spaces (c : Char) : ((!isBlank c) && decide (c ≠ ' ')) = !isBlank c := by
    by_cases space : c = ' '
    · subst space
      rfl
    · simp [space]
  rw [bareNumber, bareNumber, Text.removeChar, List.filter_filter, List.filter_congr fun c _ => spaces c]

/-- A written number has its bare form in groups without spaces. -/
theorem exists_groups (number : Text) : ∃ groups, Text.AreGroups 4 groups ∧
    groups.flatten = bareNumber number ∧ (∀ group ∈ groups, ' ' ∉ group) ∧
      accountNumber number = Text.joinWith [' '] groups := by
  obtain ⟨groups, areGroups, flatten, grouped⟩ :=
    Text.exists_areGroups (by omega : 0 < 4) ' ' (bareNumber number)
  refine ⟨groups, areGroups, flatten, fun group isGroup inGroup => ?_, grouped⟩
  have inNumber : ' ' ∈ bareNumber number := flatten ▸ List.mem_flatten_of_mem isGroup inGroup
  exact absurd (not_isBlank_of_mem_bareNumber inNumber) (by decide)

theorem removeChar_accountNumber (number : Text) :
    Text.removeChar ' ' (accountNumber number) = bareNumber number := by
  obtain ⟨groups, -, flatten, single, written⟩ := exists_groups number
  rw [written, Text.removeChar_joinWith single, flatten]

/-- **An account number keeps its characters and its form.**  Written again it stays the same; without
the spaces it is the number in upper case without white space.  Its pieces between the spaces are groups
of four, but for a last one that may be shorter, and no space stands in front or behind. -/
theorem accountNumber_keeps (number : Text) :
    accountNumber (accountNumber number) = accountNumber number ∧
      Text.removeChar ' ' (accountNumber number) =
        (Text.upper number).filter (fun c => !isBlank c) ∧
      (∃ groups, Text.AreGroups 4 groups ∧ accountNumber number = Text.joinWith [' '] groups ∧
        (groups ≠ [] → Text.splitAt ' ' (accountNumber number) = groups)) ∧
      (accountNumber number).head? ≠ some ' ' ∧ (accountNumber number).getLast? ≠ some ' ' := by
  obtain ⟨groups, areGroups, flatten, single, written⟩ := exists_groups number
  have split (filled : groups ≠ []) : Text.splitAt ' ' (accountNumber number) = groups := by
    rw [written, Text.splitAt_joinWith filled single]
  have noSpace : ¬ ((accountNumber number).head? = some ' ' ∨
      (accountNumber number).getLast? = some ' ') := by
    intro atEnd
    by_cases filled : groups = []
    · subst filled
      rw [written] at atEnd
      rcases atEnd with isFirst | isLast
      · cases isFirst
      · cases isLast
    · have isGroup := Text.nil_mem_splitAt atEnd
      rw [split filled] at isGroup
      exact absurd (areGroups.pos_of_mem (by omega) isGroup) (Nat.lt_irrefl 0)
  rw [not_or] at noSpace
  refine ⟨?_, ?_, ⟨groups, areGroups, written, split⟩, noSpace⟩
  · calc accountNumber (accountNumber number)
        = Text.groupLeft ' ' 4 (bareNumber (Text.removeChar ' ' (accountNumber number))) := by
          rw [accountNumber_eq, bareNumber_removeChar]
      _ = Text.groupLeft ' ' 4 (bareNumber number) := by
          rw [removeChar_accountNumber, bareNumber_bareNumber]
      _ = accountNumber number := (accountNumber_eq number).symm
  · rw [removeChar_accountNumber, bareNumber_eq_filter]

/-- Ligatures become several letters before the groups are counted. -/
example : accountNumber "nl91 ßﬁna 04\t17" = "NL91 SSFI NA04 17" := by decide +kernel

end Covenant.Wording
