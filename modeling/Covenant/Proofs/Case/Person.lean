import Covenant.Case.Context
import Covenant.Proofs.Outcome

/-!
# People whose records hold texts

What is worded about people of whom the names and places are texts can always be worded, apart
from the call name: when only first names are given, it is the first of their words, and there may
be none.
-/

namespace Covenant

/-- A value is a text. -/
def Value.IsText (value : Value) : Prop := ∃ content, value = .text content

structure Party.HasTexts (party : Party) : Prop where
  firstNames : party.firstNames.IsText
  surname : party.surname.IsText
  insertion : party.insertion.IsText
  callName : party.callName.IsText
  gender : party.gender.IsText
  role : party.role.IsText
  birthPlace : party.birthPlace.IsText
  address : party.address.IsText
  postalCode : party.postalCode.IsText
  city : party.city.IsText

structure Child.HasTexts (child : Child) : Prop where
  firstNames : child.firstNames.IsText
  surname : child.surname.IsText
  insertion : child.insertion.IsText
  callName : child.callName.IsText
  gender : child.gender.IsText
  birthPlace : child.birthPlace.IsText

/-- The names and places of the people of a case are texts. -/
structure CaseData.HasPersonTexts (data : CaseData) : Prop where
  parties : ∀ party ∈ data.parties, party.HasTexts
  children : ∀ child ∈ data.children, child.HasTexts

theorem CaseData.HasPersonTexts.minors {data : CaseData} (texts : data.HasPersonTexts)
    (maturityAge : Int) : ∀ child ∈ data.minors maturityAge, child.HasTexts :=
  fun child member => texts.children child (List.mem_filter.mp member).1

/-! ### Call names -/

theorem Text.words_eq_nil_iff (text : Text) : Text.words text = [] ↔ Text.isAllBlank text = true := by
  induction text with
  | nil => exact iff_of_true rfl rfl
  | cons c cs ih =>
      rw [Text.isAllBlank, List.all_cons, Bool.and_eq_true]
      unfold Text.words
      cases blank : isBlank c with
      | true => simpa [Text.isAllBlank] using ih
      | false =>
          refine iff_of_false ?_ (by simp)
          rw [if_neg Bool.false_ne_true]
          split
          · split <;> simp
          · simp

/-- A call name is given, or first names with a word in them, or no first names at all. -/
def HasCallName (callName firstNames : Value) : Prop :=
  callName.isFilled = true ∨ firstNames.isFilled = false ∨ Text.isAllBlank firstNames.plain = false

def Party.HasCallName (party : Party) : Prop := Covenant.HasCallName party.callName party.firstNames

def Child.HasCallName (child : Child) : Prop := Covenant.HasCallName child.callName child.firstNames

theorem returns_callNameOf_iff {callName firstNames : Value} (isText : firstNames.IsText) :
    Outcome.Returns (callNameOf callName firstNames) ↔ HasCallName callName firstNames := by
  obtain ⟨content, rfl⟩ := isText
  rw [callNameOf, HasCallName]
  cases called : callName.isFilled with
  | true => exact iff_of_true (Outcome.returns_ok _) (.inl rfl)
  | false =>
      cases named : (Value.text content).isFilled with
      | false => exact iff_of_true (Outcome.returns_ok _) (.inr (.inl rfl))
      | true =>
          have blank := Text.words_eq_nil_iff content
          simp only [Bool.false_eq_true, if_false, if_true, Value.asText, Outcome.ok_bind, false_or,
            reduceCtorEq, Value.plain]
          cases worded : Text.words content with
          | nil =>
              rw [worded] at blank
              exact iff_of_false (Outcome.not_returns_error _) (by simp [blank.mp rfl])
          | cons word words =>
              rw [worded] at blank
              exact iff_of_true (Outcome.returns_ok _) (by simpa using blank)

theorem isText_of_callNameOf {callName firstNames name : Value} (isText : callName.IsText)
    (called : callNameOf callName firstNames = .ok name) : name.IsText := by
  rw [callNameOf] at called
  split at called
  · obtain rfl := Except.ok.inj called
    exact isText
  · split at called
    · obtain ⟨content, -, called⟩ := Outcome.bind_eq_ok_iff.mp called
      split at called
      · obtain rfl := Except.ok.inj called
        exact ⟨_, rfl⟩
      · cases called
    · obtain rfl := Except.ok.inj called
      exact ⟨_, rfl⟩

/-! ### Names and addresses -/

namespace Wording

theorem returns_nameOf {parts : List Value} (texts : ∀ part ∈ parts, part.IsText) :
    Outcome.Returns (nameOf parts) := by
  induction parts with
  | nil => exact Outcome.returns_ok []
  | cons part parts ih =>
      have later := ih fun other member => texts other (List.mem_cons_of_mem part member)
      obtain ⟨content, rfl⟩ := texts part List.mem_cons_self
      rw [nameOf]
      split
      · exact later.bind fun _ _ => Outcome.returns_ok _
      · exact later

theorem returns_fullName {firstNames insertion surname : Value} (first : firstNames.IsText)
    (middle : insertion.IsText) (last : surname.IsText) :
    Outcome.Returns (fullName firstNames insertion surname) :=
  Outcome.returns_map_iff.mpr (returns_nameOf (by simp [first, middle, last]))

theorem returns_surname {insertion last : Value} (insertionText : insertion.IsText)
    (lastText : last.IsText) : Outcome.Returns (surname insertion last) :=
  Outcome.returns_map_iff.mpr (returns_nameOf (by simp [insertionText, lastText]))

theorem returns_initials {firstNames : Value} (isText : firstNames.IsText) :
    Outcome.Returns (initials firstNames) := by
  obtain ⟨content, rfl⟩ := isText
  rw [initials]
  split
  · exact Outcome.returns_ok _
  · exact Outcome.returns_ok _

theorem returns_joinFilled (separator : Text) {values : List Value}
    (texts : ∀ value ∈ values, value.IsText) : Outcome.Returns (joinFilled separator values) := by
  refine (Outcome.returns_mapM_iff.mpr fun value member => ?_).bind fun _ _ => Outcome.returns_ok _
  obtain ⟨content, rfl⟩ := texts value (List.mem_filter.mp member).1
  exact Outcome.returns_ok content

theorem returns_address {street postalCode city : Value} (streetText : street.IsText)
    (codeText : postalCode.IsText) (cityText : city.IsText) :
    Outcome.Returns (address street postalCode city) := by
  refine (returns_joinFilled _ (by simp [codeText, cityText])).bind fun place _ => ?_
  have isText : (Value.text place).IsText := ⟨place, rfl⟩
  exact returns_joinFilled _ (by simp [streetText, isText])

theorem Gender.returns_ofValue? {value : Value} (isText : value.IsText) :
    Outcome.Returns (Gender.ofValue? value) := by
  obtain ⟨content, rfl⟩ := isText
  rw [Gender.ofValue?]
  split
  · exact Outcome.returns_ok _
  · exact Outcome.returns_ok _

end Wording

theorem Party.HasTexts.returns_fullName {party : Party} (texts : party.HasTexts) :
    Outcome.Returns party.fullName :=
  Wording.returns_fullName texts.firstNames texts.insertion texts.surname

theorem Child.HasTexts.returns_fullName {child : Child} (texts : child.HasTexts) :
    Outcome.Returns child.fullName :=
  Wording.returns_fullName texts.firstNames texts.insertion texts.surname

namespace CaseContext

theorem returns_partyNames_iff {party : Party} (texts : party.HasTexts) (number : Nat) :
    Outcome.Returns (partyNames number party) ↔ party.HasCallName := by
  refine Iff.trans ⟨Outcome.Returns.of_bind, fun called => called.bind fun callName isCallName => ?_⟩
    (returns_callNameOf_iff texts.firstNames)
  have callText := isText_of_callNameOf texts.callName isCallName
  refine (Wording.returns_fullName callText texts.insertion texts.surname).bind fun _ _ => ?_
  refine texts.returns_fullName.bind fun _ _ => ?_
  refine (Wording.returns_surname texts.insertion texts.surname).bind fun _ _ => ?_
  refine (Wording.returns_initials texts.firstNames).bind fun _ _ => ?_
  refine (Wording.returns_address texts.address texts.postalCode texts.city).bind fun _ _ => ?_
  exact Outcome.returns_ok _

theorem returns_partiesNames_iff {parties : List Party} (texts : ∀ party ∈ parties, party.HasTexts)
    (number : Nat) :
    Outcome.Returns (partiesNames number parties) ↔ ∀ party ∈ parties, party.HasCallName := by
  induction parties generalizing number with
  | nil => exact iff_of_true (Outcome.returns_ok []) nofun
  | cons party parties ih =>
      have later := ih (fun other member => texts other (List.mem_cons_of_mem party member)) (number + 1)
      have own := returns_partyNames_iff (texts party List.mem_cons_self) number
      rw [List.forall_mem_cons, ← later, ← own, partiesNames]
      constructor
      · intro returns
        obtain ⟨names, isNames, rest⟩ := Outcome.returns_bind_iff.mp returns
        exact ⟨⟨names, isNames⟩, rest.of_bind⟩
      · rintro ⟨named, rest⟩
        exact named.bind fun _ _ => rest.bind fun _ _ => Outcome.returns_ok _

end CaseContext

theorem PartyReference.returns_childNames {children : List Child}
    (texts : ∀ child ∈ children, child.HasTexts) : Outcome.Returns (childNames children) :=
  Outcome.returns_map_iff.mpr
    (Outcome.returns_mapM_iff.mpr fun child member => (texts child member).returns_fullName)

namespace Grammar

theorem returns_displayName_iff {child : Child} (texts : child.HasTexts) :
    Outcome.Returns (displayName child) ↔ child.HasCallName := by
  rw [displayName]
  split
  · exact returns_callNameOf_iff texts.firstNames
  · rename_i noNames
    exact iff_of_true (Outcome.returns_ok _) (.inr (.inl (by simp_all)))

theorem isText_of_displayName {child : Child} (texts : child.HasTexts) {name : Value}
    (displayed : displayName child = .ok name) : name.IsText := by
  rw [displayName] at displayed
  split at displayed
  · exact isText_of_callNameOf texts.callName displayed
  · obtain rfl := Except.ok.inj displayed
    rw [Value.orElse]
    split
    · exact texts.surname
    · exact ⟨_, rfl⟩

end Grammar

theorem Wording.returns_enumerationOf {parts : List Value} (texts : ∀ part ∈ parts, part.IsText) :
    Outcome.Returns (enumerationOf parts) := by
  rw [enumerationOf]
  split
  · exact Outcome.returns_ok _
  · exact Outcome.returns_ok _
  · refine (Outcome.returns_mapM_iff.mpr fun part member => ?_).bind fun _ _ => Outcome.returns_ok _
    obtain ⟨content, rfl⟩ := texts part (List.mem_filter.mp member).1
    exact Outcome.returns_ok content

namespace Grammar

/-- What `KIND` stands for can be told when the call names of the minor children can. -/
theorem returns_minorNames_iff {minors : List Child} (texts : ∀ child ∈ minors, child.HasTexts) :
    Outcome.Returns (minorNames minors) ↔ ∀ child ∈ minors, child.HasCallName := by
  unfold minorNames
  split
  · exact iff_of_true (Outcome.returns_ok _) nofun
  · rename_i child
    rw [List.forall_mem_singleton, ← returns_displayName_iff (texts child (by simp))]
    exact ⟨Outcome.Returns.of_bind, fun named => named.bind fun _ _ => Outcome.returns_ok _⟩
  · have named : Outcome.Returns (minors.mapM displayName) ↔ ∀ child ∈ minors, child.HasCallName := by
      rw [Outcome.returns_mapM_iff]
      exact forall₂_congr fun child member => returns_displayName_iff (texts child member)
    rw [← named]
    refine ⟨Outcome.Returns.of_bind, fun names => names.bind fun values areNames => ?_⟩
    refine (Wording.returns_enumerationOf fun name member => ?_).bind fun _ _ => Outcome.returns_ok _
    obtain ⟨child, isChild, displayed⟩ := Outcome.exists_of_mem_mapM areNames member
    exact isText_of_displayName (texts child isChild) displayed

theorem returns_genderOf {children : List Child} (texts : ∀ child ∈ children, child.HasTexts) :
    Outcome.Returns (genderOf children) := by
  unfold genderOf
  split
  · exact Wording.Gender.returns_ofValue? (texts _ (by simp)).gender
  · exact Outcome.returns_ok none

theorem returns_childRules_iff {minors children : List Child}
    (minorTexts : ∀ child ∈ minors, child.HasTexts) (texts : ∀ child ∈ children, child.HasTexts) :
    Outcome.Returns (childRules minors children) ↔ ∀ child ∈ minors, child.HasCallName := by
  rw [← returns_minorNames_iff minorTexts]
  refine ⟨Outcome.Returns.of_bind, fun names => names.bind fun _ _ => ?_⟩
  exact (returns_genderOf minorTexts).bind fun _ _ =>
    (returns_genderOf texts).bind fun _ _ => Outcome.returns_ok _

end Grammar

end Covenant
