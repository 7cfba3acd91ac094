import Covenant.Case.Basic
import Covenant.Proofs.Outcome

/-!
# What stored case data have to be

Reading case data goes through the stored value from one place to the next, and every place asks for
something: members to be looked up, parts to go through, a number, a word.  These demands are listed
in the order in which they are made.  Case data are accepted when all demands are met, and otherwise
reading fails with the fault of the first demand that is not.
-/

namespace Covenant

namespace Outcome

variable {α β : Type}

def fault? : Outcome α → Option Fault
  | .ok _ => none
  | .error fault => some fault

theorem fault?_eq_none_iff {outcome : Outcome α} : outcome.fault? = none ↔ Returns outcome := by
  cases outcome with
  | ok value => exact iff_of_true rfl ⟨value, rfl⟩
  | error fault => exact iff_of_false nofun nofun

theorem fault?_eq_some_iff {outcome : Outcome α} {fault : Fault} :
    outcome.fault? = some fault ↔ outcome = .error fault := by
  cases outcome with
  | ok value => exact iff_of_false nofun nofun
  | error other => rw [fault?, Option.some.injEq, Except.error.injEq]

theorem fault?_map (f : α → β) (outcome : Outcome α) : (f <$> outcome).fault? = outcome.fault? := by
  cases outcome <;> rfl

/-- What never fails adds no fault. -/
theorem fault?_bind_of_returns {outcome : Outcome α} {next : α → Outcome β}
    (returns : ∀ value, (next value).fault? = none) : (outcome >>= next).fault? = outcome.fault? := by
  cases outcome with
  | ok value => exact returns value
  | error fault => rfl

end Outcome

/-- What a place in case data asks of the value stored there. -/
inductive Demand where
  /-- Members are looked up in it. -/
  | members (stored : Value)
  /-- It is gone through part by part. -/
  | parts (stored : Value)
  /-- It is read as keys with values. -/
  | pairs (stored : Value)
  /-- It is read as placeholders with rules. -/
  | rules (stored : Value)
  | number (stored : Value)
  /-- It is read as a condition, which may be stored as text. -/
  | condition (stored : Value)
  | word (stored : Value)

namespace Demand

/-- The fault of a demand that is not met. -/
def fault? : Demand → Option Fault
  | members stored => stored.asObject.fault?
  | parts stored => (CaseData.listed stored).fault?
  | pairs stored => (KeyedValues.ofValue stored).fault?
  | rules stored => (ConditionalPlaceholder.listOf stored).fault?
  | number stored => stored.asInteger.fault?
  | condition stored => (Clause.conditionOf stored).fault?
  | word stored => stored.asText.fault?

/-- The first fault among demands. -/
def firstFault? (demands : List Demand) : Option Fault := demands.findSome? fault?

def membersOf : Value → Members
  | .object found => found
  | _ => []

def partsOf (stored : Value) : List Value := (CaseData.listed stored).toOption.getD []

def ofParty (stored : Value) : List Demand := [members stored]

/-- The demand on an identifier, which may be absent. -/
def ofId (stored : Value) : List Demand := if stored.isAbsent then [] else [number stored]

def ofChild (stored : Value) : List Demand :=
  members stored :: ofId (Members.get (membersOf stored) "id")

/-- A demand that an empty value need not meet. -/
def ofFilled (asks : Value → Demand) (stored : Value) : List Demand :=
  if stored.isFilled then [asks stored] else []

def ofClause (stored : Value) : List Demand :=
  let entry (name other : Text) : Value := Members.getEither (membersOf stored) name other
  members stored :: condition (entry "condition_config" "conditie_config") ::
    (ofFilled number (entry "order" "volgorde") ++ ofFilled word (entry "numbering" "nummering_type"))

/-- The demands on a list, and those on each of its parts. -/
def ofEach (each : Value → List Demand) (stored : Value) : List Demand :=
  parts stored :: (partsOf stored).flatMap each

/-- The demands on case data, in the order in which they are read. -/
def ofCase (stored : Value) : List Demand :=
  let entry (name : Text) : Value := Members.get (membersOf stored) name
  members stored :: rules (entry "conditional_placeholders") :: pairs (entry "fields") ::
    (ofEach ofParty (entry "parties") ++ (ofEach ofChild (entry "children") ++
      pairs (entry "collections") ::
        (ofEach ofClause (entry "clauses") ++ ofFilled members (entry "custom_placeholders"))))

/-! ### Reading meets the demands in order -/

section Reading

variable {α β : Type}

theorem firstFault?_append (first rest : List Demand) :
    firstFault? (first ++ rest) = (firstFault? first).or (firstFault? rest) :=
  List.findSome?_append

theorem firstFault?_singleton (demand : Demand) : firstFault? [demand] = demand.fault? :=
  List.findSome?_singleton

/-- What is read first makes its demands first. -/
theorem fault?_bind {outcome : Outcome α} {next : α → Outcome β} {first rest : List Demand}
    (own : outcome.fault? = firstFault? first)
    (later : ∀ value, outcome = .ok value → (next value).fault? = firstFault? rest) :
    (outcome >>= next).fault? = firstFault? (first ++ rest) := by
  rw [firstFault?_append, ← own]
  cases outcome with
  | ok value => exact later value rfl
  | error fault => rfl

theorem fault?_bind_demand {outcome : Outcome α} {next : α → Outcome β} {demand : Demand}
    {rest : List Demand} (own : outcome.fault? = demand.fault?)
    (later : ∀ value, outcome = .ok value → (next value).fault? = firstFault? rest) :
    (outcome >>= next).fault? = firstFault? (demand :: rest) :=
  fault?_bind (own.trans (firstFault?_singleton demand).symm) later

/-- Behind what is read last nothing is demanded. -/
theorem fault?_bind_last {outcome : Outcome α} {next : α → Outcome β} {demands : List Demand}
    (own : outcome.fault? = firstFault? demands) (returns : ∀ value, (next value).fault? = none) :
    (outcome >>= next).fault? = firstFault? demands :=
  (Outcome.fault?_bind_of_returns returns).trans own

/-- An empty value is not read. -/
theorem fault?_filled {asks : Value → Demand} {stored : Value} {outcome : Outcome α} (value : α)
    (own : outcome.fault? = (asks stored).fault?) :
    (if stored.isFilled then outcome else .ok value).fault? = firstFault? (ofFilled asks stored) := by
  rw [ofFilled]
  split
  · rw [own, firstFault?_singleton]
  · rfl

theorem fault?_mapM {read : Value → Outcome α} {each : Value → List Demand}
    (own : ∀ stored, (read stored).fault? = firstFault? (each stored)) (values : List Value) :
    (values.mapM read).fault? = firstFault? (values.flatMap each) := by
  induction values with
  | nil => rfl
  | cons value values ih =>
      rw [List.mapM_cons, List.flatMap_cons]
      exact fault?_bind (own value) fun result _ => fault?_bind_last ih fun _ => rfl

theorem membersOf_of_asObject {stored : Value} {found : Members} (isObject : stored.asObject = .ok found) :
    membersOf stored = found := by
  cases stored <;> cases isObject
  rfl

theorem partsOf_of_listed {stored : Value} {found : List Value} (listed : CaseData.listed stored = .ok found) :
    partsOf stored = found := by
  rw [partsOf, listed]
  rfl

/-- A list is gone through before anything behind it is read. -/
theorem fault?_each {read : Value → Outcome α} {each : Value → List Demand}
    (own : ∀ stored, (read stored).fault? = firstFault? (each stored)) (stored : Value)
    {next : List α → Outcome β} {rest : List Demand}
    (later : ∀ results, (next results).fault? = firstFault? rest) :
    (CaseData.listed stored >>= fun found => found.mapM read >>= next).fault? =
      firstFault? (ofEach each stored ++ rest) := by
  refine fault?_bind_demand rfl fun found listed => ?_
  rw [partsOf_of_listed listed]
  exact fault?_bind (fault?_mapM own found) fun results _ => later results

theorem fault?_party (today : Date) (stored : Value) :
    (Party.ofValue today stored).fault? = firstFault? (ofParty stored) :=
  fault?_bind_demand rfl fun _ _ => rfl

theorem fault?_id (stored : Value) : (Child.idOf stored).fault? = firstFault? (ofId stored) := by
  rw [Child.idOf, ofId]
  split
  · rfl
  · rw [firstFault?_singleton]
    exact Outcome.fault?_map some stored.asInteger

theorem fault?_child (today : Date) (stored : Value) :
    (Child.ofValue today stored).fault? = firstFault? (ofChild stored) := by
  refine fault?_bind_demand rfl fun found isObject => ?_
  rw [membersOf_of_asObject isObject]
  exact fault?_bind_last (fault?_id _) fun _ => rfl

theorem fault?_order (stored : Value) :
    (Clause.orderOf stored).fault? = firstFault? (ofFilled number stored) :=
  fault?_filled 0 rfl

theorem fault?_numbering (stored : Value) :
    (HeadingNumbering.ofValue stored).fault? = firstFault? (ofFilled word stored) :=
  fault?_filled HeadingNumbering.newNumber (Outcome.fault?_bind_of_returns fun _ => rfl)

theorem fault?_custom (stored : Value) :
    (CaseData.customOf stored).fault? = firstFault? (ofFilled members stored) :=
  fault?_filled [] (Outcome.fault?_bind_of_returns fun _ => rfl)

theorem fault?_clause (stored : Value) : (Clause.ofValue stored).fault? = firstFault? (ofClause stored) := by
  refine fault?_bind_demand rfl fun found isObject => ?_
  rw [membersOf_of_asObject isObject]
  refine fault?_bind_demand rfl fun read _ => ?_
  refine fault?_bind (fault?_order _) fun order _ => ?_
  exact fault?_bind_last (fault?_numbering _) fun _ => rfl

/-- Reading case data fails with the fault of the first demand that is not met. -/
theorem fault?_case (today : Date) (stored : Value) :
    (CaseData.ofValue today stored).fault? = firstFault? (ofCase stored) := by
  refine fault?_bind_demand rfl fun found isObject => ?_
  rw [membersOf_of_asObject isObject]
  refine fault?_bind_demand rfl fun rules _ => ?_
  refine fault?_bind_demand rfl fun fields _ => ?_
  refine fault?_each (fault?_party today) _ fun parties => ?_
  refine fault?_each (fault?_child today) _ fun children => ?_
  refine fault?_bind_demand rfl fun collections _ => ?_
  refine fault?_each fault?_clause _ fun clauses => ?_
  exact fault?_bind_last (fault?_custom _) fun _ => rfl

/-- Case data are accepted exactly if every demand is met. -/
theorem returns_case_iff (today : Date) (stored : Value) :
    Outcome.Returns (CaseData.ofValue today stored) ↔ ∀ demand ∈ ofCase stored, demand.fault? = none := by
  rw [← Outcome.fault?_eq_none_iff, fault?_case, firstFault?, List.findSome?_eq_none_iff]

end Reading

end Demand

end Covenant
