import Covenant.Case.Person
import Covenant.Proofs.Outcome
import Covenant.Proofs.Text.Delimiter
import Covenant.Wording.Agreement
import Covenant.Wording.Amount
import Covenant.Wording.Calendar

/-!
# Wording without delimiters

Names, addresses, accounts, codes, amounts and dates are worded without delimiters when the stored
values that they are made of hold none.
-/

namespace Covenant

namespace Wording

variable {text : Text}

theorem clean_nameOf {parts : List Value} (each : ∀ part ∈ parts, part.IsClean) {names : List Text}
    (read : nameOf parts = .ok names) : ∀ name ∈ names, Clean name := by
  induction parts generalizing names with
  | nil =>
      obtain rfl := Except.ok.inj read
      nofun
  | cons part parts ih =>
      have later {names : List Text} (read : nameOf parts = .ok names) : ∀ name ∈ names, Clean name :=
        ih (fun other member => each other (List.mem_cons_of_mem part member)) read
      rw [nameOf] at read
      split at read
      · obtain ⟨content, isContent, read⟩ := Outcome.bind_eq_ok_iff.mp read
        obtain ⟨rest, isRest, joined⟩ := Outcome.bind_eq_ok_iff.mp read
        obtain rfl := Except.ok.inj joined
        have own := (each part List.mem_cons_self).asText isContent
        split
        · exact later isRest
        · exact List.forall_mem_cons.mpr ⟨own.trim, later isRest⟩
      · exact later read

theorem clean_fullName {firstNames insertion surname : Value} (first : firstNames.IsClean)
    (middle : insertion.IsClean) (last : surname.IsClean)
    (written : fullName firstNames insertion surname = .ok text) : Clean text := by
  obtain ⟨names, read, rfl⟩ := Outcome.map_eq_ok_iff.mp written
  exact .joinWith (by decide) (clean_nameOf (by simp [first, middle, last]) read)

theorem clean_surname {insertion last : Value} (insertionClean : insertion.IsClean)
    (lastClean : last.IsClean) (written : surname insertion last = .ok text) : Clean text := by
  obtain ⟨names, read, rfl⟩ := Outcome.map_eq_ok_iff.mp written
  exact .joinWith (by decide) (clean_nameOf (by simp [insertionClean, lastClean]) read)

theorem clean_initials {firstNames : Value} (clean : firstNames.IsClean)
    (written : initials firstNames = .ok text) : Clean text := by
  rw [initials] at written
  split at written
  · obtain ⟨content, isContent, rfl⟩ := Outcome.map_eq_ok_iff.mp written
    intro c member
    obtain ⟨word, isWord, inInitial⟩ := List.mem_flatMap.mp member
    have wordClean := (clean.asText isContent).words word isWord
    cases word with
    | nil => cases inInitial
    | cons d word =>
        have first := areMarks_isDelimiter.caseless.upperChar (wordClean d List.mem_cons_self)
        exact (first.append (Lacks.cons rfl Lacks.nil)) c inInitial
  · obtain rfl := Except.ok.inj written
    exact Lacks.nil

theorem clean_joinFilled {separator : Text} (separatorClean : Clean separator) {values : List Value}
    (each : ∀ value ∈ values, value.IsClean) (written : joinFilled separator values = .ok text) :
    Clean text := by
  obtain ⟨parts, read, joined⟩ := Outcome.bind_eq_ok_iff.mp written
  obtain rfl := Except.ok.inj joined
  refine .joinWith separatorClean fun part isPart => ?_
  obtain ⟨value, isValue, own⟩ := Outcome.exists_of_mem_mapM read isPart
  have clean := each value (List.mem_filter.mp isValue).1
  split at own
  · obtain rfl := Except.ok.inj own
    exact clean
  · cases own

theorem clean_address {street postalCode city : Value} (streetClean : street.IsClean)
    (codeClean : postalCode.IsClean) (cityClean : city.IsClean)
    (written : address street postalCode city = .ok text) : Clean text := by
  obtain ⟨place, isPlace, written⟩ := Outcome.bind_eq_ok_iff.mp written
  have placeClean : Clean place := clean_joinFilled (by decide) (by simp [codeClean, cityClean]) isPlace
  have placeValue : (Value.text place).IsClean := placeClean
  exact clean_joinFilled (by decide) (by simp [streetClean, placeValue]) written

theorem clean_accountNumber (clean : Clean text) : Clean (accountNumber text) :=
  .groupLeft rfl 4 (Lacks.upper areMarks_isDelimiter.caseless (clean.filter _))

theorem clean_code (clean : Clean text) : Clean (code text) :=
  Lacks.capitalize areMarks_isDelimiter.caseless (Clean.replaceChar (show Clean " " by decide) clean).trim

theorem clean_monthName (place : Nat) : Clean (Settings.monthNames.getD place []) := by
  rw [List.getD_eq_getElem?_getD]
  cases found : Settings.monthNames[place]? with
  | none => exact Lacks.nil
  | some name =>
      have all : Settings.monthNames.all (fun name => name.all fun c => !isDelimiter c) = true := by
        decide
      have own := List.all_eq_true.mp all name (List.mem_of_getElem? found)
      intro c member
      simpa using List.all_eq_true.mp own c member

theorem clean_date (date : Date) : Clean (Wording.date date) :=
  (((Clean.ofNat _).append (Lacks.cons rfl (clean_monthName _))).append
    (Lacks.cons rfl (Clean.ofNat _)))

theorem clean_date? (known : Option Date) : Clean (date? known) := by
  cases known with
  | none => exact Lacks.nil
  | some date => exact clean_date date

theorem clean_agree {one several : Text} (oneClean : Clean one) (severalClean : Clean several)
    (plural : Bool) : Clean (agree plural one several) := by
  cases plural
  · exact oneClean
  · exact severalClean

theorem clean_enumeration {names : List Text} (each : ∀ name ∈ names, Clean name) :
    Clean (enumeration names) := by
  have filtered : ∀ name ∈ names.filter (!·.isEmpty), Clean name :=
    fun name member => each name (List.mem_filter.mp member).1
  rw [enumeration]
  split
  · exact Lacks.nil
  · rename_i last isLast
    have lastClean := filtered last (List.mem_of_getLast? isLast)
    split
    · exact lastClean
    · refine ((Clean.joinWith (by decide) fun name member => ?_).append (by decide)).append lastClean
      exact filtered name ((List.dropLast_sublist _).subset member)

theorem isClean_enumerationOf {parts : List Value} (each : ∀ part ∈ parts, part.IsClean) {value : Value}
    (written : enumerationOf parts = .ok value) : value.IsClean := by
  have filtered : ∀ part ∈ parts.filter Value.isFilled, part.IsClean :=
    fun part member => each part (List.mem_filter.mp member).1
  rw [enumerationOf] at written
  split at written
  · obtain rfl := Except.ok.inj written
    exact Lacks.nil
  · rename_i part isOnly
    obtain rfl := Except.ok.inj written
    exact filtered _ (by rw [isOnly]; exact List.mem_cons_self)
  · obtain ⟨names, read, isText⟩ := Outcome.bind_eq_ok_iff.mp written
    obtain rfl := Except.ok.inj isText
    refine clean_enumeration fun name isName => ?_
    obtain ⟨part, isPart, own⟩ := Outcome.exists_of_mem_mapM read isName
    have clean := filtered part isPart
    split at own
    · obtain rfl := Except.ok.inj own
      exact clean
    · cases own

theorem clean_toText {amount : Amount} (written : amount.toText = .ok text) : Clean text := by
  have signClean (negative : Bool) : Clean (Amount.sign negative) := by cases negative <;> decide
  cases amount with
  | finite number =>
      rw [Amount.toText] at written
      split at written
      · cases written
      · split at written
        · cases written
        · obtain rfl := Except.ok.inj written
          exact (signClean _).append ((Clean.groupRight rfl 3 (Clean.ofNat _)).append
            (Lacks.cons rfl (Clean.ofNatPadded _ _)))
  | infinite negative =>
      obtain rfl := Except.ok.inj written
      exact (signClean _).append (by decide)
  | notANumber negative signalling payload =>
      obtain rfl := Except.ok.inj written
      refine ((signClean _).append ?_).append ?_
      · cases signalling <;> decide
      · split
        · exact Lacks.nil
        · exact Clean.ofNat _

theorem clean_amount {value : Value} (clean : value.IsClean) (written : amount value = .ok text) :
    Clean text := by
  rw [amount] at written
  split at written
  · obtain rfl := Except.ok.inj written
    exact Lacks.nil
  · split at written
    · obtain ⟨number, isNumber, rfl⟩ := Outcome.map_eq_ok_iff.mp written
      have euro : Clean "€ " := by decide
      exact euro.append (clean_toText isNumber)
    · obtain rfl := Except.ok.inj written
      exact clean

end Wording

theorem isClean_callNameOf {callName firstNames : Value} (clean : callName.IsClean)
    (firstClean : firstNames.IsClean) {value : Value} (read : callNameOf callName firstNames = .ok value) :
    value.IsClean := by
  rw [callNameOf] at read
  split at read
  · obtain rfl := Except.ok.inj read
    exact clean
  · split at read
    · obtain ⟨content, isContent, read⟩ := Outcome.bind_eq_ok_iff.mp read
      have words := (firstClean.asText isContent).words
      split at read
      · rename_i isWords
        obtain rfl := Except.ok.inj read
        rw [isWords] at words
        exact words _ List.mem_cons_self
      · cases read
    · obtain rfl := Except.ok.inj read
      exact Lacks.nil

end Covenant
