import Covenant.Grammar
import Covenant.Proofs.Context.Aliases

/-!
# Adding rules to a table

Rules are added to a table one after the other, each unless its name is there.  So the rules of before
stay as they were, a new name has the form of the first rule with this name, and the rules that are
counted are those that stand behind the old ones.
-/

namespace Covenant.Grammar

namespace RuleTable

variable {table next result : RuleTable} {added : Nat} {name other form : Text}
  {new more : List (Text × Text)}

/-- Whether two names are the same in a table. -/
def same : RuleTable → Text → Text → Bool
  | .object _ => fun first second => first == second
  | .context _ => Text.sameLower

/-- The rules in the order in which they came. -/
def rules : RuleTable → Members
  | .object rules => rules
  | .context map => map.toMembers

/-- The value of a name. -/
def value? : RuleTable → Text → Option Value
  | .object rules, name => rules.lookup name
  | .context map, name => (map.lookup name).map .text

/-- A table that takes new names. -/
def IsOpen : RuleTable → Prop
  | .object _ => True
  | .context map => map.frozen = false

/-- The form that the first of the rules with this name gives to it. -/
def firstForm (isName : Text → Bool) (rules : List (Text × Text)) : Option Value :=
  (rules.find? fun rule => isName rule.1).map fun rule => .text rule.2

theorem firstForm_cons (isName : Text → Bool) :
    firstForm isName ((other, form) :: new) =
      if isName other then some (.text form) else firstForm isName new := by
  rw [firstForm, List.find?_cons]
  cases isName other <;> rfl

theorem firstForm_append (isName : Text → Bool) :
    firstForm isName (new ++ more) = (firstForm isName new).or (firstForm isName more) := by
  rw [firstForm, List.find?_append, firstForm, firstForm]
  cases new.find? fun rule => isName rule.1 <;> rfl

/-! ### Names -/

theorem contains_eq_isSome : table.contains name = (table.value? name).isSome := by
  cases table with
  | object rules => rfl
  | context map =>
      rw [contains, value?, Option.isSome_map]
      rfl

theorem value?_congr (isSame : table.same other name = true) :
    table.value? other = table.value? name := by
  cases table with
  | object rules => rw [beq_iff_eq.mp isSame]
  | context map => rw [value?, value?, ContextMap.lookup, ContextMap.lookup, beq_iff_eq.mp isSame]

theorem value?_eq_none (absent : table.contains name = false) : table.value? name = none := by
  rw [contains_eq_isSome] at absent
  simpa using absent

/-! ### A single rule -/

theorem add_of_isOpen (isOpen : table.IsOpen) : ∃ next, table.add name form = .ok next := by
  cases table with
  | object rules => exact ⟨_, rfl⟩
  | context map =>
      have free : map.frozen = false := isOpen
      simp only [add, ContextMap.checkOpen, free]
      exact ⟨_, rfl⟩

/-- A rule that is added stands behind all others, and gives its form to its name only. -/
theorem add_spec (absent : table.contains name = false) (isNext : table.add name form = .ok next) :
    next.rules = table.rules ++ [(name, .text form)] ∧ next.same = table.same ∧
      (next.IsOpen ↔ table.IsOpen) ∧
      ∀ other, next.value? other =
        if table.same name other then some (.text form) else table.value? other := by
  cases table with
  | object rules =>
      obtain rfl := Except.ok.inj isNext
      refine ⟨rfl, rfl, Iff.rfl, fun other => ?_⟩
      have none : rules.lookup name = none := value?_eq_none absent
      rw [value?, value?, List.lookup_append, List.lookup_cons, List.lookup_nil, same]
      by_cases isSame : name = other
      · rw [← isSame, none]
        simp
      · simp [isSame, beq_eq_false_iff_ne.mpr (Ne.symm isSame)]
  | context map =>
      obtain ⟨-, -, inserted⟩ := Outcome.bind_eq_ok_iff.mp isNext
      obtain rfl := Except.ok.inj inserted
      refine ⟨?_, rfl, Iff.rfl, fun other => ?_⟩
      · have isNew : map.insertNew name form = map.insert name form := by
          rw [ContextMap.insertNew, if_neg (by simpa [contains] using absent)]
        have items : (map.insert name form).items = map.items ++ [(name, form)] := by
          rw [← isNew, ContextMap.items_insertNew, if_neg (by simpa [contains] using absent)]
        rw [rules, rules, ContextMap.toMembers, items, List.map_append]
        rfl
      · rw [value?, value?, ContextMap.lookup_insert, same]
        split <;> rfl

/-! ### Rules one after the other -/

/-- What adding rules to a table makes of it.  The rules of before stay in front as they were, and the
gained ones behind them have names of their own. -/
structure Adds (table : RuleTable) (new : List (Text × Text)) (gained : Members)
    (result : RuleTable) : Prop where
  same_eq : result.same = table.same
  isOpen_iff : result.IsOpen ↔ table.IsOpen
  rules_eq : result.rules = table.rules ++ gained
  absent : ∀ rule ∈ gained, table.value? rule.1 = none
  distinct : gained.Pairwise fun first second => table.same first.1 second.1 = false
  /-- Names of before keep their values, and a new name has the form of the first rule with it. -/
  value?_eq : ∀ name, result.value? name =
    (table.value? name).or (firstForm (table.same · name) new)

namespace Adds

variable {gained : Members}

theorem nil (table : RuleTable) : table.Adds [] [] table where
  same_eq := rfl
  isOpen_iff := Iff.rfl
  rules_eq := (List.append_nil _).symm
  absent := nofun
  distinct := .nil
  value?_eq _ := Option.or_none.symm

/-- A rule whose name is there counts for no name. -/
theorem skip (known : table.contains other = true) (adds : table.Adds new gained result) :
    table.Adds ((other, form) :: new) gained result where
  same_eq := adds.same_eq
  isOpen_iff := adds.isOpen_iff
  rules_eq := adds.rules_eq
  absent := adds.absent
  distinct := adds.distinct
  value?_eq name := by
    rw [adds.value?_eq, firstForm_cons]
    split
    · rename_i isSame
      rw [contains_eq_isSome, value?_congr isSame] at known
      rw [Option.or_of_isSome known, Option.or_of_isSome known]
    · rfl

theorem cons (isNew : table.contains other = false) (isNext : table.add other form = .ok next)
    (adds : next.Adds new gained result) :
    table.Adds ((other, form) :: new) ((other, .text form) :: gained) result := by
  obtain ⟨nextRules, nextSame, nextOpen, nextValue⟩ := add_spec isNew isNext
  have apart : ∀ rule ∈ gained, table.same other rule.1 = false ∧ table.value? rule.1 = none := by
    intro rule member
    have absent := adds.absent rule member
    rw [nextValue] at absent
    split at absent
    · cases absent
    · rename_i differs
      exact ⟨Bool.eq_false_iff.mpr differs, absent⟩
  exact {
    same_eq := adds.same_eq.trans nextSame
    isOpen_iff := adds.isOpen_iff.trans nextOpen
    rules_eq := by rw [adds.rules_eq, nextRules, List.append_assoc, List.singleton_append]
    absent := List.forall_mem_cons.mpr
      ⟨value?_eq_none isNew, fun rule member => (apart rule member).2⟩
    distinct := List.pairwise_cons.mpr
      ⟨fun rule member => (apart rule member).1, nextSame ▸ adds.distinct⟩
    value?_eq := by
      intro name
      rw [adds.value?_eq, nextValue, nextSame, firstForm_cons]
      split
      · rename_i isSame
        rw [← value?_congr isSame, value?_eq_none isNew]
        rfl
      · rfl }

end Adds

/-- The number of rules that were added is that of the gained ones. -/
theorem exists_adds (returned : table.addNew new = .ok (added, result)) :
    ∃ gained, table.Adds new gained result ∧ added = gained.length := by
  induction new generalizing table added with
  | nil =>
      obtain ⟨rfl, rfl⟩ := Prod.mk.inj (Except.ok.inj returned)
      exact ⟨[], .nil table, rfl⟩
  | cons rule new ih =>
      obtain ⟨other, form⟩ := rule
      rw [addNew] at returned
      cases known : table.contains other with
      | true =>
          rw [known, if_pos rfl] at returned
          obtain ⟨gained, adds, same⟩ := ih returned
          exact ⟨gained, adds.skip known, same⟩
      | false =>
          rw [known, if_neg Bool.false_ne_true] at returned
          obtain ⟨next, isNext, later⟩ := Outcome.bind_eq_ok_iff.mp returned
          obtain ⟨⟨count, final⟩, returnedLater, counted⟩ := Outcome.bind_eq_ok_iff.mp later
          obtain ⟨rfl, rfl⟩ := Prod.mk.inj (Except.ok.inj counted)
          obtain ⟨gained, adds, rfl⟩ := ih returnedLater
          exact ⟨_, adds.cons known isNext, rfl⟩

theorem addNew_append :
    table.addNew (new ++ more) = (do
      let (own, next) ← table.addNew new
      let (later, result) ← next.addNew more
      return (own + later, result)) := by
  induction new generalizing table with
  | nil =>
      rw [List.nil_append, addNew, Outcome.ok_bind]
      simp
  | cons rule new ih =>
      obtain ⟨other, form⟩ := rule
      rw [List.cons_append, addNew, addNew]
      cases table.contains other with
      | true => exact ih
      | false =>
          simp only [Bool.false_eq_true, if_false, bind_assoc, pure_bind, ih]
          refine bind_congr fun next => bind_congr fun own => bind_congr fun later => ?_
          rw [Nat.add_right_comm]

/-- The table with rules added to it, whether it is open or not. -/
def withRules (new : List (Text × Text)) : RuleTable → RuleTable
  | .object rules => .object (addToRules rules new)
  | .context map => .context (addToContext map new)

theorem withRules_cons_of_known (known : table.contains other = true) :
    table.withRules ((other, form) :: new) = table.withRules new := by
  cases table with
  | object rules => exact congrArg (fun start => RuleTable.object (addToRules start new)) (if_pos known)
  | context map => exact congrArg (fun start => RuleTable.context (addToContext start new)) (if_pos known)

theorem withRules_cons_of_new (isNew : table.contains other = false)
    (isNext : table.add other form = .ok next) :
    table.withRules ((other, form) :: new) = next.withRules new := by
  have absent : ¬ table.contains other = true := by simp [isNew]
  cases table with
  | object rules =>
      obtain rfl := Except.ok.inj isNext
      exact congrArg (fun start => RuleTable.object (addToRules start new)) (if_neg absent)
  | context map =>
      obtain ⟨-, -, inserted⟩ := Outcome.bind_eq_ok_iff.mp isNext
      obtain rfl := Except.ok.inj inserted
      exact congrArg (fun start => RuleTable.context (addToContext start new)) (if_neg absent)

/-- An open table takes all rules. -/
theorem addNew_of_isOpen (isOpen : table.IsOpen) (new : List (Text × Text)) :
    ∃ added, table.addNew new = .ok (added, table.withRules new) := by
  induction new generalizing table with
  | nil =>
      refine ⟨0, ?_⟩
      cases table <;> rfl
  | cons rule new ih =>
      obtain ⟨other, form⟩ := rule
      rw [addNew]
      cases known : table.contains other with
      | true =>
          rw [if_pos rfl, withRules_cons_of_known known]
          exact ih isOpen
      | false =>
          obtain ⟨next, isNext⟩ : ∃ next, table.add other form = .ok next := add_of_isOpen isOpen
          obtain ⟨added, later⟩ := ih ((add_spec known isNext).2.2.1.mpr isOpen)
          refine ⟨added + 1, ?_⟩
          rw [if_neg Bool.false_ne_true, isNext, Outcome.ok_bind, later,
            withRules_cons_of_new known isNext]
          rfl

end RuleTable

end Covenant.Grammar
