import Covenant.Condition.Basic
import Mathlib.Data.List.Forall2

/-!
# Stored conditions

A stored condition has the member names and group words of one language, and each condition inside it
those of either.  Whatever the languages, it is read back as it was.  What is read from any other value
has only groups that are known and fields that are named.
-/

namespace Covenant

/-- The languages in which conditions are stored. -/
inductive ConditionLanguage where
  | english
  | dutch

namespace ConditionLanguage

def fieldName : ConditionLanguage → Text
  | english => "field"
  | dutch => "veld"

def operandName : ConditionLanguage → Text
  | english => "value"
  | dutch => "waarde"

def compareFieldName : ConditionLanguage → Text
  | english => "compare_field"
  | dutch => "vergelijk_veld"

def childrenName : ConditionLanguage → Text
  | english => "conditions"
  | dutch => "voorwaarden"

/-- The word for a group operator. -/
def groupWord (operator : Text) : ConditionLanguage → Text
  | english => operator
  | dutch => if operator = "AND" then "EN" else "OF"

def comparisonNames (language : ConditionLanguage) : List Text :=
  [language.fieldName, "operator", language.operandName, language.compareFieldName]

def groupNames (language : ConditionLanguage) : List Text := ["operator", language.childrenName]

end ConditionLanguage

theorem Binary64.toText_ne_nil (number : Binary64) : number.toText ≠ [] := by
  cases number with
  | nan => simp [toText]
  | infinite negative => cases negative <;> simp [toText]
  | finite negative mantissa exponent =>
      simp only [toText]
      split
      · simp
      · simp only [plainNotation, exponentNotation]
        split_ifs <;> simp

namespace Value

/-- A text that is not empty. -/
def IsName (value : Value) : Prop := ∃ name, value = .text name ∧ name ≠ []

theorem IsName.isFilled {value : Value} (isName : value.IsName) : value.isFilled = true := by
  obtain ⟨name, rfl, filled⟩ := isName
  simpa [Value.isFilled] using filled

theorem IsName.text_plain {value : Value} (isName : value.IsName) : .text value.plain = value := by
  obtain ⟨name, rfl, -⟩ := isName
  rfl

theorem orElse_of_isFilled {first : Value} (filled : first.isFilled = true) (second : Value) :
    first.orElse second = first := if_pos filled

theorem null_orElse (second : Value) : Value.null.orElse second = second := rfl

theorem plain_ne_nil_of_isFilled {value : Value} (filled : value.isFilled = true) :
    value.plain ≠ [] := by
  cases value with
  | null => cases filled
  | bool truth => cases truth <;> simp [plain, shown]
  | int number => cases number <;> simp [plain, shown, Text.ofInt, Text.ofNat]
  | float number => exact Binary64.toText_ne_nil number
  | text content => simpa [isFilled, plain] using filled
  | list items => simp [plain, shown]
  | object members => simp [plain, shown]

end Value

/-- A comparison whose parts are of the kinds that stored comparisons have. -/
structure Comparison.IsStorable (leaf : Comparison) : Prop where
  field : leaf.field.IsName
  operator : ∃ spelling, leaf.operator = .text spelling
  compareField : leaf.compareField = .null ∨ leaf.compareField.IsName

theorem Comparison.IsStorable.text_plain_operator {leaf : Comparison} (storable : leaf.IsStorable) :
    .text leaf.operator.plain = leaf.operator := by
  obtain ⟨spelling, isSpelling⟩ := storable.operator
  rw [isSpelling]
  rfl

namespace Condition

/-- The comparisons of a condition have one property, the operators of its groups another. -/
inductive Every (ofLeaf : Comparison → Prop) (ofGroup : Text → Prop) : Condition → Prop where
  | comparison {leaf : Comparison} (holds : ofLeaf leaf) : Every ofLeaf ofGroup (.comparison leaf)
  | group {operator : Text} {children : List Condition} (holds : ofGroup operator)
      (each : ∀ child ∈ children, Every ofLeaf ofGroup child) :
      Every ofLeaf ofGroup (.group operator children)

/-- The operators of groups. -/
def IsJoining (operator : Text) : Prop := operator = "AND" ∨ operator = "OR"

/-- The members of an object are those of a comparison in a language.  A part that is null may be
missing. -/
structure StoresComparison (language : ConditionLanguage) (leaf : Comparison) (members : Members) :
    Prop where
  field : members.lookup language.fieldName = some leaf.field
  operator : members.lookup ("operator" : Text) = some leaf.operator
  operand : members.get language.operandName = leaf.operand
  compareField : members.get language.compareFieldName = leaf.compareField
  only : ∀ name ∉ language.comparisonNames, members.lookup name = none

/-- The members of an object are those of a group in a language.  The word for the operator may be of
the other language. -/
structure StoresGroup (language : ConditionLanguage) (operator : Text) (items : List Value)
    (members : Members) : Prop where
  operator : ∃ spoken : ConditionLanguage,
    members.lookup ("operator" : Text) = some (.text (spoken.groupWord operator))
  children : members.lookup language.childrenName = some (.list items)
  only : ∀ name ∉ language.groupNames, members.lookup name = none

/-- A value is the stored form of a condition, in any language at each place. -/
inductive StoredAs : Condition → Value → Prop where
  | comparison {leaf : Comparison} {members : Members} (language : ConditionLanguage)
      (stores : StoresComparison language leaf members) :
      StoredAs (.comparison leaf) (.object members)
  | group {operator : Text} {children : List Condition} {items : List Value} {members : Members}
      (language : ConditionLanguage) (stores : StoresGroup language operator items members)
      (each : List.Forall₂ StoredAs children items) :
      StoredAs (.group operator children) (.object members)

mutual

/-- The stored form of a condition, in the language that is chosen for each place. -/
def stored (choose : List Nat → ConditionLanguage) : Condition → Value
  | .comparison leaf =>
      .object [((choose []).fieldName, leaf.field), ("operator", leaf.operator),
        ((choose []).operandName, leaf.operand), ((choose []).compareFieldName, leaf.compareField)]
  | .group operator children =>
      .object [("operator", .text ((choose []).groupWord operator)),
        ((choose []).childrenName, .list (storedFrom choose 0 children))]

/-- The stored forms of the conditions in a group from a place on. -/
def storedFrom (choose : List Nat → ConditionLanguage) (place : Nat) : List Condition → List Value
  | [] => []
  | child :: children =>
      stored (fun path => choose (place :: path)) child :: storedFrom choose (place + 1) children

end

section Reading

variable {condition : Condition} {leaf : Comparison} {operator name : Text} {children : List Condition}
  {item value : Value} {items : List Value} {members : Members} {language : ConditionLanguage}
  {ofLeaf : Comparison → Prop} {ofGroup : Text → Prop}

theorem isGroupOperator_iff : isGroupOperator operator = true ↔ IsJoining operator := by
  simp [isGroupOperator, IsJoining]

/-! ### Stored forms -/

theorem lookup_eq_none {names : List Text} (known : members.map Prod.fst ⊆ names) :
    ∀ name ∉ names, members.lookup name = none := by
  intro name unknown
  refine List.lookup_eq_none_iff.mpr fun member isMember => bne_iff_ne.mpr ?_
  rintro rfl
  exact unknown (known (List.mem_map_of_mem isMember))

theorem storesComparison_stored (language : ConditionLanguage) (leaf : Comparison) :
    StoresComparison language leaf [(language.fieldName, leaf.field), ("operator", leaf.operator),
      (language.operandName, leaf.operand), (language.compareFieldName, leaf.compareField)] where
  field := by cases language <;> rfl
  operator := by cases language <;> rfl
  operand := by cases language <;> rfl
  compareField := by cases language <;> rfl
  only := lookup_eq_none (List.Subset.refl _)

theorem storesGroup_stored (language : ConditionLanguage) (operator : Text) (items : List Value) :
    StoresGroup language operator items [("operator", .text (language.groupWord operator)),
      (language.childrenName, .list items)] where
  operator := ⟨language, rfl⟩
  children := by cases language <;> rfl
  only := lookup_eq_none (List.Subset.refl _)

theorem forall₂_storedFrom
    (each : ∀ child ∈ children, ∀ choose, StoredAs child (stored choose child))
    (choose : List Nat → ConditionLanguage) (place : Nat) :
    List.Forall₂ StoredAs children (storedFrom choose place children) := by
  induction children generalizing place with
  | nil => exact .nil
  | cons child children ih =>
      obtain ⟨own, others⟩ := List.forall_mem_cons.mp each
      exact .cons (own _) (ih others (place + 1))

theorem storedAs_stored (every : Every ofLeaf ofGroup condition)
    (choose : List Nat → ConditionLanguage) : StoredAs condition (stored choose condition) := by
  induction every generalizing choose with
  | @comparison leaf holds =>
      rw [stored]
      exact .comparison (choose []) (storesComparison_stored _ leaf)
  | @group operator children holds each ih =>
      rw [stored]
      exact .group (choose []) (storesGroup_stored _ operator _) (forall₂_storedFrom ih choose 0)

/-! ### Reading -/

theorem ofListedUnder_eq_ofItems (isValue : members.lookup name = some value) :
    ofListedUnder name members = ofItems value := by
  induction members with
  | nil => cases isValue
  | cons member members ih =>
      obtain ⟨other, held⟩ := member
      rw [ofListedUnder]
      by_cases same : name = other
      · rw [if_pos same]
        subst same
        rw [List.lookup_cons_self] at isValue
        rw [Option.some.inj isValue]
      · rw [if_neg same]
        rw [List.lookup_cons, beq_eq_false_iff_ne.mpr same] at isValue
        exact ih isValue

theorem ofList_cons_eq_ok_iff : ofList (item :: items) = .ok children ↔
    ∃ child later, ofValue item = .ok child ∧ ofList items = .ok later ∧ children = child :: later := by
  rw [ofList]
  cases ofValue item with
  | error fault => simp [bind, Except.bind]
  | ok child =>
      cases ofList items with
      | error fault => simp [bind, Except.bind]
      | ok later => simp [bind, Except.bind, pure, Except.pure, eq_comm]

theorem ofList_eq_ok (each : List.Forall₂ (fun child item => ofValue item = .ok child) children items) :
    ofList items = .ok children := by
  induction each with
  | nil => rw [ofList]
  | @cons child item children items own others ih =>
      exact ofList_cons_eq_ok_iff.mpr ⟨child, children, own, ih, rfl⟩

/-- An object with a list of conditions is read as a group. -/
theorem ofValue_of_children
    (found : childrenNames.find? (fun name => (members.lookup name).isSome) = some name)
    (listed : members.lookup name = some (.list items)) (joining : IsJoining (groupOperator members)) :
    ofValue (.object members) = (ofList items).map (group (groupOperator members)) := by
  have held : Members.get members name = .list items := by rw [Members.get, listed, Option.getD_some]
  rw [ofValue, found]
  simp only [held]
  rw [if_pos (isGroupOperator_iff.mpr joining), ofListedUnder_eq_ofItems listed, ofItems]

theorem StoresGroup.groupOperator_eq (stores : StoresGroup language operator items members)
    (joining : IsJoining operator) : groupOperator members = operator := by
  obtain ⟨spoken, word⟩ := stores.operator
  have filled : (Value.text (spoken.groupWord operator)).isFilled = true := by
    rcases joining with rfl | rfl <;> cases spoken <;> rfl
  rw [groupOperator, Members.get, word, Option.getD_some, Value.orElse_of_isFilled filled,
    Value.orElse_of_isFilled filled]
  rcases joining with rfl | rfl <;> cases spoken <;> decide

theorem StoresGroup.find?_childrenNames (stores : StoresGroup language operator items members) :
    childrenNames.find? (fun name => (members.lookup name).isSome) = some language.childrenName := by
  have held : (members.lookup language.childrenName).isSome = true := by rw [stores.children]; rfl
  cases language with
  | english => exact List.find?_cons_of_pos held
  | dutch =>
      have noEnglish : members.lookup ("conditions" : Text) = none := stores.only _ (by decide)
      refine (List.find?_cons_of_neg ?_).trans (List.find?_cons_of_pos held)
      rw [noEnglish]
      exact Bool.false_ne_true

theorem StoresGroup.ofValue (stores : StoresGroup language operator items members)
    (joining : IsJoining operator) :
    Condition.ofValue (.object members) = (ofList items).map (group operator) := by
  have same := stores.groupOperator_eq joining
  rw [ofValue_of_children stores.find?_childrenNames stores.children (same.symm ▸ joining), same]

theorem StoresComparison.get_of_other (stores : StoresComparison language leaf members)
    (other : name ∉ language.comparisonNames) : members.get name = .null := by
  rw [Members.get, stores.only name other, Option.getD_none]

theorem StoresComparison.get_field (stores : StoresComparison language leaf members) :
    members.get language.fieldName = leaf.field := by
  rw [Members.get, stores.field, Option.getD_some]

theorem StoresComparison.getEither_operand (stores : StoresComparison language leaf members) :
    members.getEither "value" "waarde" = leaf.operand := by
  cases language with
  | english =>
      have noDutch : members.get "waarde" = .null := stores.get_of_other (by decide)
      rw [Members.getEither, noDutch]
      exact stores.operand
  | dutch =>
      have noEnglish : members.lookup ("value" : Text) = none := stores.only _ (by decide)
      rw [Members.getEither, noEnglish, Option.getD_none]
      exact stores.operand

/-- The field and the field to compare with are taken from the name that is there. -/
theorem StoresComparison.orElse_eq (stores : StoresComparison language leaf members)
    (nameOf : ConditionLanguage → Text) (held : members.get (nameOf language) = value)
    (apart : nameOf .english ∉ ConditionLanguage.dutch.comparisonNames ∧
      nameOf .dutch ∉ ConditionLanguage.english.comparisonNames)
    (kind : value = .null ∨ value.IsName) :
    (members.get (nameOf .english)).orElse (members.get (nameOf .dutch)) = value := by
  cases language with
  | english =>
      rw [held, stores.get_of_other apart.2]
      rcases kind with rfl | isName
      · rfl
      · exact Value.orElse_of_isFilled isName.isFilled _
  | dutch => rw [held, stores.get_of_other apart.1, Value.null_orElse]

theorem StoresComparison.find?_childrenNames (stores : StoresComparison language leaf members) :
    childrenNames.find? (fun name => (members.lookup name).isSome) = none := by
  have other : ∀ name ∈ childrenNames, name ∉ language.comparisonNames := by
    cases language <;> decide
  exact List.find?_eq_none.mpr fun name isChildren => by simp [stores.only name (other name isChildren)]

theorem StoresComparison.comparisonOf_eq (stores : StoresComparison language leaf members)
    (storable : leaf.IsStorable) : comparisonOf members = .ok (.comparison leaf) := by
  have field : (members.get "field").orElse (members.get "veld") = leaf.field :=
    stores.orElse_eq ConditionLanguage.fieldName stores.get_field (by decide) (.inr storable.field)
  have compareField :
      (members.get "compare_field").orElse (members.get "vergelijk_veld") = leaf.compareField :=
    stores.orElse_eq ConditionLanguage.compareFieldName stores.compareField (by decide)
      storable.compareField
  have operator : operatorOf members = leaf.operator.plain := by rw [operatorOf, stores.operator]
  rw [comparisonOf, field, compareField, operator, stores.getEither_operand]
  simp only [storable.field.isFilled, if_true]
  rw [storable.field.text_plain, storable.text_plain_operator]

theorem StoresComparison.ofValue (stores : StoresComparison language leaf members)
    (storable : leaf.IsStorable) : Condition.ofValue (.object members) = .ok (.comparison leaf) := by
  rw [Condition.ofValue, stores.find?_childrenNames]
  exact stores.comparisonOf_eq storable

/-- A stored condition is read back. -/
theorem ofValue_of_storedAs (storable : Every Comparison.IsStorable IsJoining condition)
    (isStored : StoredAs condition value) : ofValue value = .ok condition := by
  induction storable generalizing value with
  | @comparison leaf storable =>
      obtain ⟨language, stores⟩ := isStored
      exact stores.ofValue storable
  | @group operator children joining each ih =>
      obtain - | ⟨language, stores, listed⟩ := isStored
      have read : ofList _ = .ok children := ofList_eq_ok
        (((List.forall₂_and_left _ _).mpr ⟨fun child member => @ih child member, listed⟩).imp
          fun child item ⟨reads, isStored⟩ => reads isStored)
      rw [stores.ofValue joining, read]
      rfl

/-! ### What is read -/

theorem every_of_comparisonOf (read : comparisonOf members = .ok condition) :
    Every (·.field.IsName) IsJoining condition := by
  simp only [comparisonOf] at read
  split at read
  · rename_i filled
    obtain rfl := Except.ok.inj read
    exact .comparison ⟨_, rfl, Value.plain_ne_nil_of_isFilled filled⟩
  · cases read

theorem every_of_map_group {read : Except ConditionFault (List Condition)}
    (joining : isGroupOperator operator = true) (each : ∀ {children}, read = .ok children →
      ∀ child ∈ children, Every (·.field.IsName) IsJoining child)
    (grouped : read.map (group operator) = .ok condition) :
    Every (·.field.IsName) IsJoining condition := by
  cases read with
  | error fault => cases grouped
  | ok children =>
      obtain rfl := Except.ok.inj grouped
      exact .group (isGroupOperator_iff.mp joining) (each rfl)

mutual

/-- What is read has only groups that are known and fields that are named. -/
theorem every_of_ofValue : ∀ (value : Value) {condition : Condition}, ofValue value = .ok condition →
    Every (·.field.IsName) IsJoining condition
  | .object members, condition, read => by
      rw [ofValue] at read
      split at read
      · exact every_of_comparisonOf read
      · rename_i name found
        split at read
        · exact every_of_comparisonOf read
        · simp only at read
          split at read
          · rename_i joining
            exact every_of_map_group joining (every_of_ofListedUnder name members) read
          · cases read
        · cases read
  | .null, _, read | .bool _, _, read | .int _, _, read | .float _, _, read | .text _, _, read
  | .list _, _, read => by cases read

theorem every_of_ofListedUnder (name : Text) : ∀ (members : List (Text × Value))
    {children : List Condition}, ofListedUnder name members = .ok children →
    ∀ child ∈ children, Every (·.field.IsName) IsJoining child
  | [], _, read => by
      cases read
      exact nofun
  | (other, value) :: members, _, read => by
      rw [ofListedUnder] at read
      split at read
      · exact every_of_ofItems value read
      · exact every_of_ofListedUnder name members read

theorem every_of_ofItems : ∀ (value : Value) {children : List Condition},
    ofItems value = .ok children → ∀ child ∈ children, Every (·.field.IsName) IsJoining child
  | .list items, _, read => every_of_ofList items (by rwa [ofItems] at read)
  | .null, _, read | .bool _, _, read | .int _, _, read | .float _, _, read | .text _, _, read
  | .object _, _, read => by
      cases read
      exact nofun

theorem every_of_ofList : ∀ (items : List Value) {children : List Condition},
    ofList items = .ok children → ∀ child ∈ children, Every (·.field.IsName) IsJoining child
  | [], _, read => by
      cases read
      exact nofun
  | item :: items, _, read => by
      obtain ⟨child, later, own, others, rfl⟩ := ofList_cons_eq_ok_iff.mp read
      exact List.forall_mem_cons.mpr ⟨every_of_ofValue item own, every_of_ofList items others⟩

end

/-- Married, or living in one place without children at home. -/
def householdCondition : Condition :=
  .group "OR" [
    .comparison { field := .text "status", operand := .text "gehuwd" },
    .group "AND" [
      .comparison { field := .text "plaats_partij1", operator := .text "=",
                    compareField := .text "plaats_partij2" },
      .comparison { field := .text "thuiswonend", operator := .text "", operand := .int 0 }]]

/-- The household condition as it is written by hand. -/
def writtenHousehold : Value :=
  .object [("operator", .text "OR"), ("voorwaarden", .list [
    .object [("operator", .text "="), ("veld", .text "status"), ("waarde", .text "gehuwd")],
    .object [("conditions", .list [
      .object [("field", .text "plaats_partij1"), ("operator", .text "="),
        ("compare_field", .text "plaats_partij2")],
      .object [("veld", .text "thuiswonend"), ("vergelijk_veld", .null), ("operator", .text ""),
        ("waarde", .int 0)]]), ("operator", .text "EN")]])]

end Reading

end Condition

end Covenant
