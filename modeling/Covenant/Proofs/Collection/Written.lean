import Covenant.Collection.Registry
import Covenant.Proofs.Case.Person
import Covenant.Proofs.Collection.Lookup
import Covenant.Proofs.Text.Digits

/-!
# Items that can be written

The variables of an item can be written unless it is a child without a call name, a reference to a
child by a number of too many digits, or an amount that is too long.
-/

namespace Covenant

namespace PartyReference

variable {settings : Settings} {data : CaseData} {reference : Value} {digits : Text}

/-- If the value refers to a child by its number, the number can be read. -/
def IsReadable (reference : Value) : Prop :=
  ∀ digits, childDigits? (Text.lower (Text.trim reference.plain)) = some digits →
    digits.length ≤ maxIntegerDigits

/-- A word that refers to no child by its number can be read. -/
theorem IsReadable.of_noChild
    (noChild : childDigits? (Text.lower (Text.trim reference.plain)) = none) :
    IsReadable reference := by
  intro digits isChild
  cases noChild.symm.trans isChild

theorem IsReadable.of_listed {words : List Text} (noChild : ∀ word ∈ words, childDigits? word = none)
    (listed : words.contains (Text.lower (Text.trim reference.plain)) = true) :
    IsReadable reference :=
  .of_noChild (noChild _ (List.contains_iff_mem.mp listed))

theorem returns_childLabel_iff (texts : data.HasPersonTexts) {word : Text}
    (isChild : childDigits? word = some digits) (reference : Text) :
    Outcome.Returns (childLabel data digits reference) ↔ digits.length ≤ maxIntegerDigits := by
  have row : digits.all isDigit = true ∧ digits ≠ [] := by
    simp only [childDigits?] at isChild
    split_ifs at isChild with prefixed isRow
    obtain rfl := Option.some.inj isChild
    simpa [and_comm] using isRow
  have read : Outcome.Returns (Value.integerOfText digits) ↔ digits.length ≤ maxIntegerDigits := by
    rw [Value.integerOfText, readInteger_digits row.1 row.2]
    split_ifs with long
    · exact iff_of_false (Outcome.not_returns_error _) (by omega)
    · exact iff_of_true (Outcome.returns_ok _) (by omega)
  rw [← read]
  refine ⟨Outcome.Returns.of_bind, fun number => number.bind fun _ _ => ?_⟩
  split
  · rename_i child found
    exact (texts.children child (List.mem_of_find?_eq_some found)).returns_fullName
  · exact Outcome.returns_ok _

theorem returns_label_iff (texts : data.HasPersonTexts) :
    Outcome.Returns (label settings data reference) ↔ IsReadable reference := by
  rw [label]
  split
  · rename_i isNull
    cases reference with
    | null => exact iff_of_true (Outcome.returns_ok _) (.of_noChild (by decide))
    | _ => cases isNull
  · simp only
    split
    · rename_i party parties listed parted
      exact iff_of_true (texts.parties party (by simp [parted])).returns_fullName
        (.of_listed (by decide) listed)
    · split
      · rename_i other party parties listed parted
        exact iff_of_true (texts.parties party (by simp [parted])).returns_fullName
          (.of_listed (by decide) listed)
      · split
        · rename_i both
          exact iff_of_true (Outcome.returns_ok _) (.of_listed (by decide) both)
        · split
          · rename_i digits isChild
            rw [returns_childLabel_iff texts isChild, IsReadable]
            exact ⟨fun short other same => Option.some.inj (isChild.symm.trans same) ▸ short,
              fun short => short digits isChild⟩
          · rename_i noChild
            refine iff_of_true ?_ (.of_noChild noChild)
            split_ifs
            · exact returns_childNames (texts.minors _)
            · exact returns_childNames texts.children
            · exact Outcome.returns_ok _

end PartyReference

theorem Amount.returns_toText_iff (amount : Amount) :
    Outcome.Returns amount.toText ↔
      ∀ number, amount = .finite number → centDigitCount number ≤ greatestTextLength := by
  cases amount with
  | finite number =>
      rw [toText]
      split_ifs with tooLarge tooLong
      · refine iff_of_false (Outcome.not_returns_error _) fun short => ?_
        have atMost := short number rfl
        simp only [greatestDigitCount, greatestTextLength] at tooLarge atMost
        omega
      · refine iff_of_false (Outcome.not_returns_error _) fun short => ?_
        exact absurd (short number rfl) (by omega)
      · refine iff_of_true (Outcome.returns_ok _) ?_
        rintro other ⟨⟩
        omega
  | infinite negative => exact iff_of_true (Outcome.returns_ok _) nofun
  | notANumber negative signalling payload => exact iff_of_true (Outcome.returns_ok _) nofun

namespace Wording

/-- If the value is an amount, it has no more digits than a text may have characters. -/
def IsShortAmount (value : Value) : Prop :=
  ∀ number, Amount.ofText? (Text.removeChar '€' value.plain) = some (.finite number) →
    Amount.centDigitCount number ≤ greatestTextLength

theorem returns_amount_iff {value : Value} : Outcome.Returns (amount value) ↔ IsShortAmount value := by
  have absent (noAmount : Amount.ofText? (Text.removeChar '€' value.plain) = none) :
      IsShortAmount value := by
    intro number isNumber
    cases noAmount.symm.trans isNumber
  rw [amount]
  split
  · rename_i isAbsent
    refine iff_of_true (Outcome.returns_ok _) (absent ?_)
    cases value with
    | null => decide
    | text content =>
        have empty : content = [] := by simpa [Value.isAbsent] using isAbsent
        rw [empty]
        decide
    | _ => cases isAbsent
  · split
    · rename_i number isNumber
      refine Outcome.returns_map_iff.trans (number.returns_toText_iff.trans ?_)
      simp [IsShortAmount, isNumber]
    · rename_i noNumber
      exact iff_of_true (Outcome.returns_ok _) (absent noNumber)

end Wording

namespace FieldKind

variable {settings : Settings} {data : CaseData}

/-- A field of the kind can be written with the value. -/
def CanWrite (kind : FieldKind) (value : Value) : Prop :=
  match kind with
  | party | debtor => PartyReference.IsReadable value
  | currency => Wording.IsShortAmount value
  | _ => True

theorem returns_debtorLabel_iff (texts : data.HasPersonTexts) {value : Value} :
    Outcome.Returns (debtorLabel settings data value) ↔ PartyReference.IsReadable value := by
  rw [debtorLabel]
  split
  · rename_i paidOff
    refine iff_of_true (Outcome.returns_ok _) (.of_noChild ?_)
    rw [paidOff]
    decide
  · exact PartyReference.returns_label_iff texts

theorem returns_write_iff (texts : data.HasPersonTexts) (kind : FieldKind) (value : Value) :
    Outcome.Returns (kind.write settings data value) ↔ kind.CanWrite value := by
  unfold write
  split
  · rename_i isNull
    obtain rfl : value = .null := by cases value <;> first | rfl | cases isNull
    refine iff_of_true (Outcome.returns_ok _) ?_
    cases kind with
    | party => exact .of_noChild (by decide)
    | debtor => exact .of_noChild (by decide)
    | currency => exact Wording.returns_amount_iff.mp (Outcome.returns_ok _)
    | _ => trivial
  · cases kind with
    | party => exact PartyReference.returns_label_iff texts
    | debtor => exact returns_debtorLabel_iff texts
    | currency => exact Wording.returns_amount_iff
    | _ => exact iff_of_true (Outcome.returns_ok _) trivial

end FieldKind

/-- A field can be written with the member of a record that it comes from, or with free text. -/
def ItemField.CanWrite (field : ItemField) (record : Members) : Prop :=
  Collection.isOther field (record.get field.source) = true ∨
    field.kind.CanWrite (record.get field.source)

/-- An item is a record or a child whose names are texts. -/
def Item.HasTexts : Item → Prop
  | .child own => own.HasTexts
  | .record _ => True

namespace Collection

variable {settings : Settings} {data : CaseData} {collection : Collection} {item : Item}

theorem returns_fieldValue_iff (texts : data.HasPersonTexts) (record : Members) (field : ItemField) :
    Outcome.Returns (fieldValue settings data record field) ↔ field.CanWrite record := by
  simp only [fieldValue]
  split
  · rename_i other
    exact iff_of_true (Outcome.returns_ok _) (.inl other)
  · rename_i noOther
    rw [FieldKind.returns_write_iff texts, ItemField.CanWrite]
    simp [noOther]

theorem returns_recordValues_iff (texts : data.HasPersonTexts) (stem : Text) (fields : List ItemField)
    (record : Members) :
    Outcome.Returns (recordValues settings stem data fields record) ↔
      ∀ field ∈ fields, field.CanWrite record := by
  have written : Outcome.Returns (fields.mapM fun field => do
      return (stem ++ field.name, Value.text (← fieldValue settings data record field))) ↔
        ∀ field ∈ fields, field.CanWrite record := by
    rw [Outcome.returns_mapM_iff]
    refine forall₂_congr fun field _ => ?_
    rw [← returns_fieldValue_iff texts]
    exact ⟨Outcome.Returns.of_bind, fun value => value.bind fun _ _ => Outcome.returns_ok _⟩
  rw [← written]
  exact ⟨Outcome.Returns.of_bind, fun values => values.bind fun _ _ => Outcome.returns_ok _⟩

theorem returns_childValues_iff {child : Child} (texts : child.HasTexts) (stem : Text) :
    Outcome.Returns (childValues stem data child) ↔ child.HasCallName := by
  refine Iff.trans ⟨Outcome.Returns.of_bind, fun called => called.bind fun _ _ => ?_⟩
    (returns_callNameOf_iff texts.firstNames)
  exact (Wording.returns_surname texts.insertion texts.surname).bind fun _ _ =>
    texts.returns_fullName.bind fun _ _ => Outcome.returns_ok _

/-- The variables of an item of a collection can be written. -/
def CanWrite (collection : Collection) : Item → Prop
  | .child child => child.HasCallName
  | .record record =>
      match collection.source with
      | .records fields _ => ∀ field ∈ fields, field.CanWrite record
      | _ => True

theorem returns_itemValues_iff (texts : data.HasPersonTexts) (itemTexts : item.HasTexts) :
    Outcome.Returns (collection.itemValues settings data item) ↔ collection.CanWrite item := by
  rw [itemValues.eq_def, CanWrite.eq_def]
  cases item with
  | child child =>
      have texts : child.HasTexts := itemTexts
      exact returns_childValues_iff texts _
  | record record =>
      cases collection.source with
      | records fields otherNames => exact returns_recordValues_iff texts _ fields record
      | children selection =>
          exact (returns_recordValues_iff texts _ [] record).trans (iff_of_true nofun trivial)

theorem hasTexts_of_listed (texts : data.HasPersonTexts) {surroundings : Members} {items : List Item}
    (listed : collection.items settings data surroundings = .ok items) (member : item ∈ items) :
    item.HasTexts := by
  cases item with
  | child child => exact texts.children child (child_mem_of_listed listed member)
  | record record => trivial

theorem areTexts_recordValues {stem : Text} {fields : List ItemField} {record values : Members}
    (written : recordValues settings stem data fields record = .ok values) :
    ∀ value ∈ values, value.2.IsText := by
  intro value isValue
  rcases mem_recordValues written isValue with ⟨field, -, wording, -, rfl⟩ | ⟨key, stored, -, rfl⟩
  · exact ⟨wording, rfl⟩
  · exact ⟨_, rfl⟩

theorem areTexts_childValues {child : Child} (texts : child.HasTexts) {stem : Text} {values : Members}
    (written : childValues stem data child = .ok values) : ∀ value ∈ values, value.2.IsText := by
  obtain ⟨callName, isCallName, written⟩ := Outcome.bind_eq_ok_iff.mp written
  obtain ⟨surname, isSurname, written⟩ := Outcome.bind_eq_ok_iff.mp written
  obtain ⟨fullName, isFullName, written⟩ := Outcome.bind_eq_ok_iff.mp written
  obtain rfl := Except.ok.inj written
  have callText := isText_of_callNameOf texts.callName isCallName
  have isText (content : Text) : (Value.text content).IsText := ⟨content, rfl⟩
  simp [isText, callText, texts.firstNames, texts.birthPlace]

/-- The variables of an item are texts. -/
theorem areTexts_itemValues (itemTexts : item.HasTexts) {values : Members}
    (written : collection.itemValues settings data item = .ok values) :
    ∀ value ∈ values, value.2.IsText := by
  cases item with
  | child child => exact areTexts_childValues itemTexts written
  | record record =>
      rw [itemValues.eq_def] at written
      cases own : collection.source with
      | records fields otherNames =>
          rw [own] at written
          exact areTexts_recordValues written
      | children selection =>
          rw [own] at written
          exact areTexts_recordValues written

end Collection

end Covenant
