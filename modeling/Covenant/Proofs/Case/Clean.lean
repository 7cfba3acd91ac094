import Covenant.Collection.Registry
import Covenant.Condition.Rules
import Covenant.Proofs.Template.Tokenised
import Covenant.Proofs.Value.Members
import Covenant.Proofs.Wording.Clean

/-!
# Cases without delimiters

The stored values of a case may hold no delimiters, apart from the results of rules, which may hold
tokens.  Lists of records are stored as collections; the fields are the values that are texts to a
template.
-/

namespace Covenant

structure Party.IsClean (party : Party) : Prop where
  firstNames : party.firstNames.IsClean
  surname : party.surname.IsClean
  insertion : party.insertion.IsClean
  callName : party.callName.IsClean
  role : party.role.IsClean
  birthPlace : party.birthPlace.IsClean
  address : party.address.IsClean
  postalCode : party.postalCode.IsClean
  city : party.city.IsClean

theorem Party.IsClean.clean_fullName {party : Party} (clean : party.IsClean) {text : Text}
    (written : party.fullName = .ok text) : Clean text :=
  Wording.clean_fullName clean.firstNames clean.insertion clean.surname written

structure Child.IsClean (child : Child) : Prop where
  firstNames : child.firstNames.IsClean
  surname : child.surname.IsClean
  insertion : child.insertion.IsClean
  callName : child.callName.IsClean
  birthPlace : child.birthPlace.IsClean

theorem Child.IsClean.clean_fullName {child : Child} (clean : child.IsClean) {text : Text}
    (written : child.fullName = .ok text) : Clean text :=
  Wording.clean_fullName clean.firstNames clean.insertion clean.surname written

structure Clause.IsClean (clause : Clause) : Prop where
  title : clause.title.IsClean
  text : clause.text.IsClean
  userTitle : clause.userTitle.IsClean
  userText : clause.userText.IsClean
  caseText : clause.caseText.IsClean

/-- The members of an object hold no delimiters. -/
def Members.AreClean (members : Members) : Prop := ∀ member ∈ members, member.2.IsClean

namespace Members.AreClean

theorem get {members : Members} (clean : members.AreClean) (name : Text) : (members.get name).IsClean := by
  rw [Members.get]
  cases found : members.lookup name with
  | none => exact (show Clean ("None" : Text) by decide)
  | some value =>
      obtain ⟨before, after, listed, -⟩ := List.lookup_eq_some_iff.mp found
      exact clean (name, value) (by rw [listed]; simp)

theorem ofPairs {pairs : List (Text × Value)} (clean : ∀ pair ∈ pairs, pair.2.IsClean) :
    (Members.ofPairs pairs).AreClean :=
  fun pair member => clean pair (Members.mem_of_mem_ofPairs member)

theorem append {members more : Members} (clean : members.AreClean)
    (moreClean : more.AreClean) : Members.AreClean (members ++ more) :=
  fun member isMember => (List.mem_append.mp isMember).elim (clean member) (moreClean member)

end Members.AreClean

/-- The members of the records in a list hold no delimiters. -/
def HoldsCleanRecords (stored : Value) : Prop :=
  ∀ items, Collection.listIn stored = .ok items →
    ∀ members : Members, .object members ∈ items → members.AreClean

/-- A template: its square brackets are those of tokens. -/
def HoldsBracketsInTokens (text : Text) : Prop := Tokenised isBracket (fun _ => True) text

/-- A text whose delimiters are the brackets of tokens. -/
def HoldsTokens (text : Text) : Prop := Tokenised isDelimiter (fun _ => True) text

/-- The results of rules, and the result without a rule, hold delimiters in tokens only. -/
def ConditionalPlaceholder.ResultsHoldTokens (placeholder : ConditionalPlaceholder) : Prop :=
  ∀ members : Members, placeholder.configuration = .object members →
    HoldsTokens (Members.getEither members "default" "standaard").stored ∧
      ∀ rule : Members, .object rule ∈ Rules.rulesOf members →
        HoldsTokens (Members.getEither rule "result" "resultaat").stored

/-- The stored values of a case hold no delimiters, and results of rules hold them in tokens only. -/
structure CaseData.IsClean (data : CaseData) : Prop where
  fields : ∀ field ∈ data.fields, field.2.IsClean
  parties : ∀ party ∈ data.parties, party.IsClean
  children : ∀ child ∈ data.children, child.IsClean
  collections : ∀ collection ∈ data.collections, HoldsCleanRecords collection.2
  clauses : ∀ clause ∈ data.clauses, clause.IsClean
  customPlaceholders : ∀ custom ∈ data.customPlaceholders, Clean custom.2
  results : ∀ placeholder ∈ data.conditionalPlaceholders, placeholder.ResultsHoldTokens

theorem CaseData.IsClean.minors {data : CaseData} (clean : data.IsClean) (maturityAge : Int) :
    ∀ child ∈ data.minors maturityAge, child.IsClean :=
  fun child member => clean.children child (List.mem_filter.mp member).1

end Covenant
