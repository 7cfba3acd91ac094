import Covenant.Proofs.Case.Person
import Mathlib.Data.List.DropRight
import Mathlib.Data.List.Perm.Basic

/-!
# Whom grammar rules look at

The plain rules are about the minor children and about no one else: of other children, they could not
even tell how many there are.  The rules that start with `alle` count all children, and read the gender
of an only child.
-/

namespace Covenant

/-! ### Names in another order -/

namespace Outcome

variable {α β : Type} {f : α → Outcome β} {values others : List α} {results : List β}

theorem exists_mapM_of_perm (moved : others.Perm values) (mapped : values.mapM f = .ok results) :
    ∃ movedResults, others.mapM f = .ok movedResults ∧ movedResults.Perm results := by
  obtain ⟨movedResults, each, isMoved⟩ := List.perm_comp_forall₂ moved (mapM_eq_ok_iff.mp mapped)
  exact ⟨movedResults, mapM_eq_ok_iff.mpr each, isMoved⟩

/-- Two computations that return in the same cases agree in what is made of their results. -/
theorem toOption_map_eq {first second : Outcome α} {g : α → β} (returns : Returns first ↔ Returns second)
    (same : ∀ one other, first = .ok one → second = .ok other → g one = g other) :
    (g <$> first).toOption = (g <$> second).toOption := by
  cases first with
  | error fault =>
      cases second with
      | error other => rfl
      | ok other => exact absurd (returns.mpr (returns_ok other)) (not_returns_error fault)
  | ok one =>
      cases second with
      | error other => exact absurd (returns.mp (returns_ok one)) (not_returns_error other)
      | ok other => exact congrArg some (same one other rfl rfl)

end Outcome

theorem Wording.returns_enumerationOf_iff {parts : List Value} :
    Outcome.Returns (enumerationOf parts) ↔
      (2 ≤ (parts.filter Value.isFilled).length → ∀ part ∈ parts.filter Value.isFilled, part.IsText) := by
  rw [enumerationOf]
  generalize parts.filter Value.isFilled = filled
  split
  · exact iff_of_true (Outcome.returns_ok _) fun several => absurd several (by decide)
  · exact iff_of_true (Outcome.returns_ok _) fun several => absurd several (by simp)
  · rename_i notNone notSingle
    have several : 2 ≤ filled.length := by
      rcases filled with _ | ⟨first, _ | ⟨second, later⟩⟩
      · exact absurd rfl notNone
      · exact absurd rfl (notSingle first)
      · simp
    rw [imp_iff_right several]
    refine Iff.trans ⟨Outcome.Returns.of_bind, fun named => named.bind fun _ _ => Outcome.returns_ok _⟩
      (Outcome.returns_mapM_iff.trans (forall₂_congr fun part _ => ?_))
    cases part with
    | text name => exact iff_of_true (Outcome.returns_ok name) ⟨name, rfl⟩
    | _ => exact iff_of_false (Outcome.not_returns_error _) (by simp [Value.IsText])

theorem Wording.returns_enumerationOf_of_perm {parts others : List Value} (moved : others.Perm parts)
    (returns : Outcome.Returns (enumerationOf parts)) : Outcome.Returns (enumerationOf others) := by
  have filled := moved.filter Value.isFilled
  rw [returns_enumerationOf_iff] at returns ⊢
  intro several part member
  exact returns (filled.length_eq ▸ several) part (filled.mem_iff.mp member)

namespace Grammar

/-- The only child, if there is one, has the gender that decides. -/
theorem genderOf_congr {children others : List Child} (sameLength : others.length = children.length)
    (sameGender : others.length = 1 → others.map (·.gender) = children.map (·.gender)) :
    genderOf others = genderOf children := by
  rcases others with _ | ⟨other, _ | ⟨second, later⟩⟩
  · rw [List.eq_nil_of_length_eq_zero sameLength.symm]
  · obtain ⟨child, rfl⟩ := List.length_eq_one_iff.mp sameLength.symm
    have same : other.gender = child.gender := by simpa using sameGender rfl
    rw [genderOf, genderOf, same]
  · rcases children with _ | ⟨child, _ | ⟨third, more⟩⟩
    · simp at sameLength
    · simp at sameLength
    · rfl

theorem genderOf_of_perm {children others : List Child} (moved : others.Perm children) :
    genderOf others = genderOf children := by
  refine genderOf_congr moved.length_eq fun single => ?_
  obtain ⟨child, rfl⟩ := List.length_eq_one_iff.mp single
  rw [List.singleton_perm.mp moved]

theorem returns_minorNames_of_perm {minors others : List Child} (moved : others.Perm minors)
    (returns : Outcome.Returns (minorNames minors)) : Outcome.Returns (minorNames others) := by
  rcases minors with _ | ⟨first, _ | ⟨second, later⟩⟩
  · rwa [moved.eq_nil]
  · rwa [List.perm_singleton.mp moved]
  · obtain ⟨names, named, returns⟩ := Outcome.returns_bind_iff.mp returns
    obtain ⟨movedNames, isNamed, isMoved⟩ := Outcome.exists_mapM_of_perm moved named
    have several := moved.length_eq
    rcases others with _ | ⟨one, _ | ⟨two, more⟩⟩
    · simp at several
    · simp at several
    · refine Outcome.returns_bind_iff.mpr ⟨movedNames, isNamed, ?_⟩
      exact (Wording.returns_enumerationOf_of_perm isMoved returns.of_bind).bind
        fun _ _ => Outcome.returns_ok _

/-! ### The names of rules -/

/-- A rule that does not start with `alle`. -/
def isPlain (rule : Text × Value) : Bool := !allStart.isPrefixOf rule.1

/-- A plain rule with a form for one and a form for several. -/
def isCounted (rule : Text × Value) : Bool :=
  isPlain rule && rule.1 != ("KIND" : Text) && rule.1 != ("KINDEREN" : Text)

/-- The names of all rules for children, which are the same for all children. -/
def ruleNames : List Text :=
  (nameRules .null .null ++ countRules [] false none ++ countRules allStart false none).map (·.1)

variable {plural : Bool} {gender : Option Wording.Gender} {one several : Value}

theorem names_countRules (start : Text) (plural : Bool) (gender : Option Wording.Gender) :
    (countRules start plural gender).map (·.1) = (countRules start false none).map (·.1) := rfl

theorem nodup_ruleNames : ruleNames.Nodup := by
  decide +kernel

theorem isCounted_of_mem_countRules {rule : Text × Value} (member : rule ∈ countRules [] plural gender) :
    isCounted rule = true := by
  have counted : ∀ name ∈ (countRules [] false none).map (·.1), isCounted (name, .null) = true := by
    decide +kernel
  exact counted rule.1 (names_countRules [] plural gender ▸ List.mem_map_of_mem member)

theorem isPlain_of_mem_countRules_allStart {rule : Text × Value}
    (member : rule ∈ countRules allStart plural gender) : isPlain rule = false := by
  obtain ⟨form, -, rfl⟩ := List.mem_map.mp member
  simp [isPlain]

theorem isPlain_of_isCounted {rule : Text × Value} (counted : isCounted rule = true) : isPlain rule = true := by
  simp only [isCounted, Bool.and_eq_true] at counted
  exact counted.1.1

/-! ### Forms that agree in number -/

/-- The form for several that a name gives: what stands behind its last slash. -/
def pluralSide (name : Text) : Text := name.rtakeWhile (· != '/')

/-- The forms for one that a name gives: what stands in front of its last slash, or a part of it. -/
def singularForms (name : Text) : List Text :=
  let side := (name.rdropWhile (· != '/')).dropLast
  side :: side.splitOn '/'

/-- A form is the one for several when there are several, and no other time. -/
structure AgreesInNumber (several : Prop) (name form : Text) : Prop where
  plural_iff : form = pluralSide name ↔ several
  singular : ¬ several → form ∈ singularForms name

theorem agreesInNumber_iff {several : Prop} {name form : Text} :
    AgreesInNumber several name form ↔
      (form = pluralSide name ↔ several) ∧ (¬ several → form ∈ singularForms name) :=
  ⟨fun agrees => ⟨agrees.plural_iff, agrees.singular⟩, fun agrees => ⟨agrees.1, agrees.2⟩⟩

theorem agreesInNumber_of_mem {rule : Text × Text}
    (member : rule ∈ countForms plural ++ verbForms plural ++ pronounForms plural gender) :
    AgreesInNumber (plural = true) rule.1 rule.2 := by
  have verbs : ∀ rule ∈ countForms plural ++ verbForms plural,
      AgreesInNumber (plural = true) rule.1 rule.2 := by
    simp only [agreesInNumber_iff]
    cases plural <;> decide +kernel
  have pronouns : ∀ rule ∈ pronounForms plural gender,
      AgreesInNumber (plural = true) rule.1 rule.2 := by
    simp only [agreesInNumber_iff]
    rcases plural with _ | _ <;> rcases gender with _ | _ | _ <;> decide +kernel
  exact (List.mem_append.mp member).elim (verbs rule) (pronouns rule)

/-! ### Rules for the children of a date -/

/-- The rules for children at a date, of whom those known to be below the age of maturity are minor. -/
def rulesAt (maturityAge : Int) (reference : Date) (children : List Child) :
    Outcome (List (Text × Value)) :=
  childRules (children.filter (·.isMinor maturityAge reference)) children

/-- The rules for a case are those for its children at the date that ages are told by. -/
theorem grammarRules_eq (settings : Settings) (data : CaseData) (context : ContextMap) :
    CaseContext.grammarRules settings data context =
      if data.children.isEmpty then simpleRules <$> CaseContext.statedCount context
      else rulesAt settings.maturityAge data.ageDate data.children := rfl

/-- The gender of an only child is a text, or there is none. -/
def GenderIsRead (children : List Child) : Prop :=
  ∀ child, children = [child] → child.gender.isFilled = true → child.gender.IsText

theorem returns_genderOf_iff {children : List Child} :
    Outcome.Returns (genderOf children) ↔ GenderIsRead children := by
  rcases children with _ | ⟨first, _ | ⟨second, later⟩⟩
  · exact iff_of_true (Outcome.returns_ok _) (by simp [GenderIsRead])
  · rw [genderOf, Wording.Gender.ofValue?, GenderIsRead]
    cases filled : first.gender.isFilled with
    | false => exact iff_of_true (Outcome.returns_ok _) (by simp_all)
    | true =>
        rw [if_pos rfl]
        cases gender : first.gender with
        | text word => exact iff_of_true (Outcome.returns_ok _) (by simp_all [Value.IsText])
        | _ => exact iff_of_false (Outcome.not_returns_error _) (by simp_all [Value.IsText])
  · exact iff_of_true (Outcome.returns_ok _) (by simp [GenderIsRead])

variable {minors children : List Child} {given : List (Text × Value)}

theorem childRules_eq_ok_iff :
    childRules minors children = .ok given ↔
      ∃ names minorGender gender, minorNames minors = .ok names ∧ genderOf minors = .ok minorGender ∧
        genderOf children = .ok gender ∧
        nameRules names.1 names.2 ++ countRules [] (decide (1 < minors.length)) minorGender ++
          countRules allStart (decide (1 < children.length)) gender = given := by
  simp only [childRules, Outcome.bind_eq_ok_iff]
  constructor
  · rintro ⟨⟨one, several⟩, named, minorGender, isMinorGender, gender, isGender, same⟩
    exact ⟨(one, several), minorGender, gender, named, isMinorGender, isGender, Except.ok.inj same⟩
  · rintro ⟨⟨one, several⟩, minorGender, gender, named, isMinorGender, isGender, rfl⟩
    exact ⟨(one, several), named, minorGender, isMinorGender, gender, isGender, rfl⟩

section Parts

variable (one several : Value) (plural all : Bool) (minorGender gender : Option Wording.Gender)

theorem filter_isPlain_allRules : (countRules allStart all gender).filter isPlain = [] :=
  List.filter_eq_nil_iff.mpr fun rule member => by simp [isPlain_of_mem_countRules_allStart member]

theorem filter_isPlain :
    (nameRules one several ++ countRules [] plural minorGender ++ countRules allStart all gender).filter
        isPlain = nameRules one several ++ countRules [] plural minorGender := by
  have names : (nameRules one several).filter isPlain = nameRules one several := rfl
  have own : (countRules [] plural minorGender).filter isPlain = countRules [] plural minorGender :=
    List.filter_eq_self.mpr fun rule member => isPlain_of_isCounted (isCounted_of_mem_countRules member)
  rw [List.filter_append, List.filter_append, names, own, filter_isPlain_allRules, List.append_nil]

theorem filter_not_isPlain :
    (nameRules one several ++ countRules [] plural minorGender ++ countRules allStart all gender).filter
        (!isPlain ·) = countRules allStart all gender := by
  have names : (nameRules one several).filter (!isPlain ·) = [] := rfl
  have own : (countRules [] plural minorGender).filter (!isPlain ·) = [] :=
    List.filter_eq_nil_iff.mpr fun rule member => by
      simp [isPlain_of_isCounted (isCounted_of_mem_countRules member)]
  have others : (countRules allStart all gender).filter (!isPlain ·) = countRules allStart all gender :=
    List.filter_eq_self.mpr fun rule member => by simp [isPlain_of_mem_countRules_allStart member]
  rw [List.filter_append, List.filter_append, names, own, others, List.nil_append, List.nil_append]

theorem filter_isCounted :
    (nameRules one several ++ countRules [] plural minorGender ++ countRules allStart all gender).filter
        isCounted = countRules [] plural minorGender := by
  have names : (nameRules one several).filter isCounted = [] := rfl
  have own : (countRules [] plural minorGender).filter isCounted = countRules [] plural minorGender :=
    List.filter_eq_self.mpr fun rule member => isCounted_of_mem_countRules member
  have others : (countRules allStart all gender).filter isCounted = [] :=
    List.filter_eq_nil_iff.mpr fun rule member counted => by
      simpa [isPlain_of_mem_countRules_allStart member] using isPlain_of_isCounted counted
  rw [List.filter_append, List.filter_append, names, own, others, List.nil_append, List.append_nil]

end Parts

/-- Rules for children are the plain rules for the minors of them, and rules about all. -/
theorem childRules_eq :
    childRules minors children = do
      let own ← childRules minors minors
      let gender ← genderOf children
      return own.filter isPlain ++ countRules allStart (decide (1 < children.length)) gender := by
  unfold childRules
  cases minorNames minors with
  | error fault => rfl
  | ok names =>
      cases genderOf minors with
      | error fault => rfl
      | ok minorGender =>
          simp only [Outcome.ok_bind, pure_bind, filter_isPlain]

theorem plain_childRules (isRead : GenderIsRead children) :
    List.filter isPlain <$> childRules minors children =
      List.filter isPlain <$> childRules minors minors := by
  obtain ⟨gender, isGender⟩ := returns_genderOf_iff.mpr isRead
  rw [childRules_eq, isGender]
  cases childRules minors minors with
  | error fault => rfl
  | ok own =>
      refine congrArg Except.ok ?_
      rw [List.filter_append, filter_isPlain_allRules, List.append_nil, List.filter_filter]
      simp only [Bool.and_self]

theorem agreesInNumber_of_isCounted (ruled : childRules minors children = .ok given)
    {rule : Text × Value} (member : rule ∈ given) (counted : isCounted rule = true) :
    ∃ form, rule.2 = .text form ∧ AgreesInNumber (2 ≤ minors.length) rule.1 form := by
  obtain ⟨names, minorGender, gender, -, -, -, rfl⟩ := childRules_eq_ok_iff.mp ruled
  have kept := List.mem_filter.mpr ⟨member, counted⟩
  rw [filter_isCounted] at kept
  obtain ⟨form, isForm, rfl⟩ := List.mem_map.mp kept
  have agrees := agreesInNumber_of_mem isForm
  rw [decide_eq_true_eq] at agrees
  exact ⟨form.2, rfl, agrees⟩

theorem nodup_names (ruled : childRules minors children = .ok given) : (given.map (·.1)).Nodup := by
  obtain ⟨names, minorGender, gender, -, -, -, rfl⟩ := childRules_eq_ok_iff.mp ruled
  exact nodup_ruleNames

theorem rulesAt_minors (maturityAge : Int) (reference : Date) (children : List Child) :
    let minors := children.filter (·.isMinor maturityAge reference)
    rulesAt maturityAge reference minors = childRules minors minors := by
  simp [rulesAt, List.filter_filter]

theorem returns_childRules_of_perm {others all otherAll : List Child} (moved : others.Perm minors)
    (isRead : GenderIsRead otherAll) (returns : Outcome.Returns (childRules minors all)) :
    Outcome.Returns (childRules others otherAll) := by
  obtain ⟨given, ruled⟩ := returns
  obtain ⟨names, minorGender, -, named, isMinorGender, -, -⟩ := childRules_eq_ok_iff.mp ruled
  obtain ⟨otherNames, isNamed⟩ := returns_minorNames_of_perm moved ⟨names, named⟩
  obtain ⟨gender, isGender⟩ := returns_genderOf_iff.mpr isRead
  exact ⟨_, childRules_eq_ok_iff.mpr
    ⟨otherNames, minorGender, gender, isNamed, (genderOf_of_perm moved).trans isMinorGender, isGender, rfl⟩⟩

/-- Minors in another order leave the counted rules as they are. -/
theorem counted_childRules_of_perm {others all otherAll : List Child} (moved : others.Perm minors)
    (otherRead : GenderIsRead otherAll) (isRead : GenderIsRead all) :
    (List.filter isCounted <$> childRules others otherAll).toOption =
      (List.filter isCounted <$> childRules minors all).toOption := by
  refine Outcome.toOption_map_eq
    ⟨returns_childRules_of_perm moved.symm isRead, returns_childRules_of_perm moved otherRead⟩
    fun rest given otherRuled ruled => ?_
  obtain ⟨-, otherGender, -, -, isOtherGender, -, rfl⟩ := childRules_eq_ok_iff.mp otherRuled
  obtain ⟨-, minorGender, -, -, isMinorGender, -, rfl⟩ := childRules_eq_ok_iff.mp ruled
  rw [genderOf_of_perm moved, isMinorGender] at isOtherGender
  rw [filter_isCounted, filter_isCounted, moved.length_eq, Except.ok.inj isOtherGender]

/-- **Plain rules look at minors only.**  The rules for children are the plain rules for the minors
among them, with rules about all behind, and no two have one name.  So lists with the same minors have
the same plain rules, whoever else is in them, unless the gender of an only child cannot be read.
Minors in another order have the same plain rules but for their own names.  Each of these rules takes
its form for several just when there are two minors or more.  The rules about all are those of any other
list as long, whose only child, if it is one, has the same gender. -/
theorem plain_rules_of_minors (maturityAge : Int) (reference : Date) (children : List Child) :
    let rules := rulesAt maturityAge reference
    let minors := List.filter (Child.isMinor maturityAge reference)
    (rules children = do
      let own ← rules (minors children)
      let gender ← genderOf children
      return own.filter isPlain ++ countRules allStart (decide (1 < children.length)) gender) ∧
    (∀ given, rules children = .ok given →
      (given.map (·.1)).Nodup ∧
      (∃ own, rules (minors children) = .ok own ∧ given.filter isPlain = own.filter isPlain) ∧
      (∀ rule ∈ given, isCounted rule = true →
        ∃ form, rule.2 = .text form ∧ AgreesInNumber (2 ≤ (minors children).length) rule.1 form) ∧
      ∀ others rest, rules others = .ok rest → others.length = children.length →
        (others.length = 1 → others.map (·.gender) = children.map (·.gender)) →
          rest.filter (!isPlain ·) = given.filter (!isPlain ·)) ∧
    (GenderIsRead children →
      List.filter isPlain <$> rules children = List.filter isPlain <$> rules (minors children) ∧
      ∀ others, GenderIsRead others →
        (minors others = minors children →
          List.filter isPlain <$> rules others = List.filter isPlain <$> rules children) ∧
        ((minors others).Perm (minors children) →
          (List.filter isCounted <$> rules others).toOption =
            (List.filter isCounted <$> rules children).toOption)) := by
  intro rules minors
  have own : rules (minors children) = childRules (minors children) (minors children) :=
    rulesAt_minors maturityAge reference children
  have plain (all : List Child) (isRead : GenderIsRead all) : List.filter isPlain <$> rules all =
      List.filter isPlain <$> childRules (minors all) (minors all) := plain_childRules isRead
  refine ⟨own ▸ childRules_eq, fun given ruled => ⟨nodup_names ruled, ?_, ?_, ?_⟩,
    fun isRead => ⟨?_, ?_⟩⟩
  · obtain ⟨names, minorGender, gender, named, isMinorGender, -, rfl⟩ := childRules_eq_ok_iff.mp ruled
    refine ⟨_, own.trans (childRules_eq_ok_iff.mpr
      ⟨names, minorGender, minorGender, named, isMinorGender, isMinorGender, rfl⟩), ?_⟩
    rw [filter_isPlain, filter_isPlain]
  · exact fun rule member counted => agreesInNumber_of_isCounted ruled member counted
  · intro others rest otherRuled sameLength sameGender
    obtain ⟨-, -, otherGender, -, -, isOtherGender, rfl⟩ := childRules_eq_ok_iff.mp otherRuled
    obtain ⟨-, -, gender, -, -, isGender, rfl⟩ := childRules_eq_ok_iff.mp ruled
    rw [genderOf_congr sameLength sameGender, isGender] at isOtherGender
    rw [filter_not_isPlain, filter_not_isPlain, sameLength, Except.ok.inj isOtherGender]
  · rw [own]
    exact plain children isRead
  · refine fun others otherRead => ⟨fun same => ?_, fun moved => ?_⟩
    · rw [plain others otherRead, plain children isRead, same]
    · exact counted_childRules_of_perm moved otherRead isRead

def childOf (name gender : Text) (birthDate : Option Date) : Child where
  id := none
  firstNames := .text name
  surname := .text "Vries"
  insertion := .text "de"
  callName := .text []
  gender := .text gender
  birthDate
  birthPlace := .text []
  recognitionDate := none

/-- Two minors among an adult and a child whose date of birth is not known. -/
def mixedChildren : List Child := [
  childOf "Thomas" "m" (some { year := 1999, month := 3, day := 1 }),
  childOf "Emma" "v" (some { year := 2014, month := 5, day := 20 }),
  childOf "Noa" "" none,
  childOf "Daan" "m" (some { year := 2017, month := 11, day := 2 })]

theorem plain_rules_of_minors_mixedChildren :
    let day : Date := { year := 2024, month := 6, day := 1 }
    let minors := List.filter (Child.isMinor 18 day)
    ((minors mixedChildren).length = 2 ∧ GenderIsRead mixedChildren ∧ GenderIsRead mixedChildren.reverse ∧
      (minors mixedChildren.reverse).Perm (minors mixedChildren) ∧
      (List.filter isCounted <$> rulesAt 18 day mixedChildren.reverse).toOption =
        (List.filter isCounted <$> rulesAt 18 day mixedChildren).toOption) ∧
    ∃ given, rulesAt 18 day mixedChildren = .ok given ∧
      ∀ rule ∈ given, isCounted rule = true → rule.2 = .text (pluralSide rule.1) := by
  intro day minors
  obtain ⟨-, whenGiven, whenRead⟩ := plain_rules_of_minors 18 day mixedChildren
  have isRead : GenderIsRead mixedChildren := nofun
  have isReadToo : GenderIsRead mixedChildren.reverse := nofun
  have moved : (minors mixedChildren.reverse).Perm (minors mixedChildren) :=
    (List.reverse_perm mixedChildren).filter _
  have two : (minors mixedChildren).length = 2 := by decide +kernel
  have returns : (rulesAt 18 day mixedChildren).toOption.isSome = true := by decide +kernel
  obtain ⟨given, isGiven⟩ := Option.isSome_iff_exists.mp returns
  have ruled := Outcome.eq_ok_of_toOption isGiven
  refine ⟨⟨two, isRead, isReadToo, moved, ((whenRead isRead).2 _ isReadToo).2 moved⟩, given, ruled,
    fun rule member counted => ?_⟩
  obtain ⟨form, isForm, agrees⟩ := (whenGiven given ruled).2.2.1 rule member counted
  rw [isForm, agrees.plural_iff.mpr two.ge]

end Grammar

end Covenant
