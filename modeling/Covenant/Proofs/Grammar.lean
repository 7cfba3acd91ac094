import Covenant.Grammar
import Covenant.Proofs.Case.Clean

/-!
# Grammar rules without delimiters

The forms of grammar rules are fixed words, names of children and the forms that collections are
registered with.
-/

namespace Covenant

/-- The forms that the collections are registered with hold no delimiters. -/
def Registry.HoldsCleanForms (registry : Registry) : Prop :=
  ∀ collection ∈ registry.toList, ∀ pair ∈ collection.grammarPairs, Clean pair.singular ∧ Clean pair.plural

theorem Registry.holdsCleanForms_usual : Registry.usual.HoldsCleanForms := by
  unfold HoldsCleanForms
  decide +kernel

namespace Grammar

variable {settings : Settings} {data : CaseData}

theorem clean_countForms (plural : Bool) (gender : Option Wording.Gender) :
    ∀ form ∈ countForms plural ++ verbForms plural ++ pronounForms plural gender, Clean form.2 := by
  rcases plural with _ | _ <;> rcases gender with _ | _ | _ <;> decide +kernel

theorem clean_countRules (start : Text) (plural : Bool) (gender : Option Wording.Gender) :
    Members.AreClean (countRules start plural gender) := by
  intro rule member
  obtain ⟨form, isForm, rfl⟩ := List.mem_map.mp member
  exact clean_countForms plural gender form isForm

theorem clean_nameRules {one several : Value} (oneClean : one.IsClean) (severalClean : several.IsClean) :
    Members.AreClean (nameRules one several) := by
  simp [Members.AreClean, nameRules, oneClean, severalClean]

theorem clean_simpleRules (count : Int) : Members.AreClean (simpleRules count) := by
  have names : Members.AreClean (nameRules
      (.text (Wording.agree (decide (1 < count)) "het kind" "de kinderen")) (.text "de kinderen")) :=
    clean_nameRules (Wording.clean_agree (by decide) (by decide) _)
      (show Clean ("de kinderen" : Text) by decide)
  intro rule member
  rcases List.mem_append.mp member with member | member
  · rcases List.mem_append.mp member with member | member
    · exact names rule member
    · exact clean_countRules _ _ _ rule member
  · exact clean_countRules _ _ _ rule member

theorem isClean_displayName {child : Child} (clean : child.IsClean) {value : Value}
    (named : displayName child = .ok value) : value.IsClean := by
  rw [displayName] at named
  split at named
  · exact isClean_callNameOf clean.callName clean.firstNames named
  · obtain rfl := Except.ok.inj named
    exact clean.surname.orElse (show Clean ("het kind" : Text) by decide)

theorem isClean_minorNames {minors : List Child} (clean : ∀ child ∈ minors, child.IsClean)
    {one several : Value} (named : minorNames minors = .ok (one, several)) :
    one.IsClean ∧ several.IsClean := by
  unfold minorNames at named
  split at named
  · cases named
    exact ⟨show Clean ("het kind" : Text) by decide, show Clean ("de kinderen" : Text) by decide⟩
  · rename_i child
    obtain ⟨name, isName, same⟩ := Outcome.bind_eq_ok_iff.mp named
    cases same
    have own := isClean_displayName (clean child List.mem_cons_self) isName
    exact ⟨own, own⟩
  · obtain ⟨parts, areParts, named⟩ := Outcome.bind_eq_ok_iff.mp named
    obtain ⟨names, areNames, same⟩ := Outcome.bind_eq_ok_iff.mp named
    cases same
    have own : one.IsClean := by
      refine Wording.isClean_enumerationOf (fun part isPart => ?_) areNames
      obtain ⟨child, isChild, isName⟩ := Outcome.exists_of_mem_mapM areParts isPart
      exact isClean_displayName (clean child isChild) isName
    exact ⟨own, own⟩

theorem clean_childRules {minors children : List Child} (clean : ∀ child ∈ minors, child.IsClean)
    {rules : List (Text × Value)} (given : childRules minors children = .ok rules) :
    Members.AreClean rules := by
  obtain ⟨⟨one, several⟩, named, given⟩ := Outcome.bind_eq_ok_iff.mp given
  obtain ⟨minorGender, -, given⟩ := Outcome.bind_eq_ok_iff.mp given
  obtain ⟨gender, -, same⟩ := Outcome.bind_eq_ok_iff.mp given
  obtain rfl := Except.ok.inj same
  obtain ⟨oneClean, severalClean⟩ := isClean_minorNames clean named
  intro rule member
  rcases List.mem_append.mp member with member | member
  · rcases List.mem_append.mp member with member | member
    · exact clean_nameRules oneClean severalClean rule member
    · exact clean_countRules _ _ _ rule member
  · exact clean_countRules _ _ _ rule member

theorem clean_collectionRules {registry : Registry} (clean : registry.HoldsCleanForms)
    {rules : List (Text × Text)} (given : collectionRules settings registry data = .ok rules) :
    ∀ rule ∈ rules, Clean rule.2 := by
  obtain ⟨each, areRules, same⟩ := Outcome.bind_eq_ok_iff.mp given
  obtain rfl := Except.ok.inj same
  intro rule member
  obtain ⟨own, isOwn, member⟩ := List.mem_flatten.mp member
  obtain ⟨collection, registered, given⟩ := Outcome.exists_of_mem_mapM areRules isOwn
  unfold rulesOfCollection at given
  split at given
  · obtain rfl := Except.ok.inj given
    cases member
  · obtain ⟨items, -, same⟩ := Outcome.bind_eq_ok_iff.mp given
    obtain rfl := Except.ok.inj same
    split at member
    · cases member
    · obtain ⟨pair, isPair, rfl⟩ := List.mem_map.mp member
      obtain ⟨singular, plural⟩ := clean collection registered pair isPair
      show Clean (pair.form items.length)
      rw [GrammarPair.form]
      split
      · exact plural
      · exact singular

end Grammar

end Covenant
