import Covenant.Proofs.Context.Agreement
import Covenant.Proofs.Context.Frozen

/-!
# Whole runs of a session

A context behaves as a map in insertion order whose names are compared in lower case.  Over a whole
run of operations, what a context shows is what the writes and removals that were made to it say
(`History.listed`); an operation that fails has changed nothing; and a frozen context stays as it is.
-/

namespace Covenant

namespace ContextMap

variable {context : ContextMap}

/-- What a context with a history shows, as its users see it. -/
structure Shows (context : ContextMap) (history : History) : Prop where
  names_distinct : (context.names.map Text.lower).Nodup
  lookup_iff (name text : Text) : context.lookup name = some text ↔
    ∃ listed, (listed, text) ∈ context.items ∧ Text.lower listed = Text.lower name
  /-- Texts are those of the last writes, spellings and places those of the first writes since the
  names were last absent. -/
  items_eq : context.items = history.listed
  frozen_iff : context.frozen = true ↔ .freeze ∈ history
  items_of_frozen (before after : History) : history = before ++ .freeze :: after →
    context.items = before.listed

theorem keys_eq (entries : List Entry) :
    entries.map (·.key) = (entries.map (·.name)).map Text.lower := by
  rw [List.map_map]
  exact List.map_congr_left fun entry _ => entry.key_eq

theorem Distinct.lookup_iff (distinct : context.Distinct) (name text : Text) :
    context.lookup name = some text ↔
      ∃ listed, (listed, text) ∈ context.items ∧ Text.lower listed = Text.lower name := by
  constructor
  · rw [lookup_eq_firstText]
    intro found
    obtain ⟨pair, member, same, rfl⟩ := exists_of_firstText found
    exact ⟨pair.1, member, beq_iff_eq.mp same⟩
  · rintro ⟨listed, member, same⟩
    obtain ⟨entry, isEntry, isItem⟩ := List.mem_map.mp member
    obtain ⟨rfl, rfl⟩ := Prod.mk.inj isItem
    rw [← distinct.lookup_of_mem isEntry, lookup, lookup, same]

theorem Follows.shows {history : History} (follows : context.Follows history) :
    context.Shows history where
  names_distinct := by
    rw [names, ← keys_eq]
    exact follows.distinct
  lookup_iff := follows.distinct.lookup_iff
  items_eq := follows.items_eq
  frozen_iff := follows.frozen_iff
  items_of_frozen := by
    rintro before after rfl
    rw [follows.items_eq, History.listed_append_freezes (follows.closes before after rfl)]

end ContextMap

/-! ### Runs -/

namespace RecordedSession

/-- Both contexts show what their histories say. -/
structure Faithful (recorded : RecordedSession) : Prop where
  current : recorded.current.context.Follows recorded.current.history
  other : recorded.other.context.Follows recorded.other.history

/-- What steps on the current context lead to: its history goes on, both contexts still show what
their histories say, and the other context is left alone. -/
structure Continues (recorded later : RecordedSession) : Prop where
  faithful : recorded.Faithful → later.Faithful
  history : recorded.current.history <+: later.current.history
  other : later.other = recorded.other

theorem Continues.refl (recorded : RecordedSession) : Continues recorded recorded :=
  ⟨id, List.prefix_rfl, rfl⟩

theorem Continues.trans {recorded middle later : RecordedSession}
    (first : Continues recorded middle) (second : Continues middle later) :
    Continues recorded later where
  faithful := second.faithful ∘ first.faithful
  history := first.history.trans second.history
  other := second.other.trans first.other

/-- The session after the steps of an operation. -/
def after (recorded : RecordedSession) (operation : ContextOperation) : RecordedSession :=
  (Stepwise.outcome (Stepwise.of operation) recorded).2

/-- A run of operations on a context that is made from members. -/
def run (data : Members) (operations : List ContextOperation) : RecordedSession :=
  operations.foldl after (after {} (.update data))

theorem session_after (recorded : RecordedSession) (operation : ContextOperation) :
    (recorded.after operation).session = recorded.session.after operation := by
  have performs := @Stepwise.of_performs recorded operation
  rw [after, ContextSession.after]
  cases answer : recorded.session.perform operation with
  | error fault =>
      rw [answer] at performs
      rw [show Stepwise.outcome _ _ = _ from performs]
  | ok result =>
      rw [answer] at performs
      obtain ⟨later, returns, same⟩ := performs
      rw [returns, same]

theorem session_run (data : Members) (operations : List ContextOperation) :
    (run data operations).session =
      operations.foldl ContextSession.after { current := .ofMembers data } := by
  have start : (after {} (.update data)).session = { current := .ofMembers data } := by
    rw [session_after]
    cases data with
    | nil => rfl
    | cons first data => rfl
  have later (recorded : RecordedSession) : (operations.foldl after recorded).session =
      operations.foldl ContextSession.after recorded.session := by
    induction operations generalizing recorded with
    | nil => rfl
    | cons operation operations ih => rw [List.foldl_cons, ih, session_after, List.foldl_cons]
  rw [run, later, start]

end RecordedSession

namespace Stepwise

/-- Whether or not steps return, the session continues. -/
def Keeps {α : Type} (steps : Stepwise α) : Prop :=
  ∀ recorded : RecordedSession, recorded.Continues (outcome steps recorded).2

section Keeping

variable {α β : Type} {key value : Value}

theorem keeps_pure (result : α) : Keeps (pure result) := .refl

theorem keeps_throw (fault : Fault) : Keeps (throw fault : Stepwise α) := .refl

theorem Keeps.bind {first : Stepwise α} {next : α → Stepwise β} (keeps : Keeps first)
    (later : ∀ result, Keeps (next result)) : Keeps (first >>= next) := by
  intro recorded
  have kept := keeps recorded
  cases returns : outcome first recorded with
  | mk answer session =>
      rw [returns] at kept
      cases answer with
      | error fault =>
          rw [outcome_bind_error returns]
          exact kept
      | ok result =>
          rw [outcome_bind_ok returns]
          exact kept.trans (later result session)

theorem keeps_context : Keeps context := .refl

theorem keeps_nameOf : Keeps (nameOf key) := by
  intro recorded
  rw [outcome_nameOf]
  exact .refl recorded

theorem keeps_getItem : Keeps (getItem key) := by
  intro recorded
  rw [outcome_getItem]
  exact .refl recorded

theorem open_of_checkOpen {context : ContextMap} {done : Unit}
    (isOpen : context.checkOpen = .ok done) : context.frozen = false := by
  cases isFrozen : context.frozen with
  | false => rfl
  | true =>
      rw [ContextMap.checkOpen, isFrozen] at isOpen
      cases isOpen

theorem keeps_setItem : Keeps (setItem key value) := by
  intro recorded
  rw [outcome_setItem]
  cases written : recorded.current.context.checkOpen >>= fun _ => key.asText with
  | error fault => exact .refl recorded
  | ok name =>
      obtain ⟨done, isOpen, -⟩ := Outcome.bind_eq_ok_iff.mp written
      exact {
        faithful := fun faithful =>
          ⟨faithful.current.insert (open_of_checkOpen isOpen), faithful.other⟩
        history := List.prefix_append _ _
        other := rfl }

theorem keeps_removeItem : Keeps (removeItem key) := by
  intro recorded
  rw [outcome_removeItem]
  split
  · rename_i name removed
    obtain ⟨done, isOpen, -⟩ := Outcome.bind_eq_ok_iff.mp removed
    exact {
      faithful := fun faithful =>
        ⟨faithful.current.erase (open_of_checkOpen isOpen), faithful.other⟩
      history := List.prefix_append _ _
      other := rfl }
  · exact .refl recorded

theorem keeps_setDefault : Keeps (setDefault key value) := by
  refine keeps_context.bind fun context => ?_
  split
  · exact keeps_pure false
  · exact keeps_setItem.bind fun _ => keeps_pure true

theorem keeps_addAliases (entries : List Entry) : Keeps (addAliases entries) := by
  induction entries with
  | nil => exact keeps_pure 0
  | cons entry entries ih =>
      have first : Keeps (addAlias entry) := by
        unfold addAlias
        split
        · exact keeps_setDefault
        · exact keeps_pure false
      exact first.bind fun added => ih.bind fun more => keeps_pure _

theorem keeps_setItems (members : Members) : Keeps (setItems members) := by
  induction members with
  | nil => exact keeps_pure ()
  | cons first members ih => exact keeps_setItem.bind fun _ => ih

theorem keeps_pop (default : Option Value) : Keeps (pop key default) := by
  refine keeps_nameOf.bind fun name => keeps_context.bind fun context => ?_
  split
  · exact keeps_removeItem.bind fun _ => keeps_pure _
  · exact keeps_pure _
  · exact keeps_throw _

theorem keeps_popFirst : Keeps popFirst := by
  refine keeps_context.bind fun context => ?_
  split
  · exact keeps_throw _
  · exact keeps_getItem.bind fun text => keeps_removeItem.bind fun _ => keeps_pure _

theorem keeps_getOrSet : Keeps (getOrSet key value) := by
  refine keeps_nameOf.bind fun name => keeps_context.bind fun context => ?_
  split
  · exact keeps_pure _
  · exact keeps_setItem.bind fun _ => keeps_pure _

theorem keeps_takeOut (count : Nat) : Keeps (takeOut count) := by
  induction count with
  | zero => exact keeps_pure ()
  | succ count ih =>
      refine keeps_context.bind fun context => ?_
      split
      · exact keeps_pure ()
      · exact keeps_popFirst.bind fun _ => ih

/-- Every operation on the current context continues the session. -/
theorem keeps_of (operation : ContextOperation) (notCopy : operation ≠ .copy)
    (notSwap : operation ≠ .swap) : Keeps (of operation) := by
  cases operation with
  | get key => exact keeps_getItem.bind fun _ => keeps_pure _
  | set key value => exact keeps_setItem.bind fun _ => keeps_pure _
  | remove key => exact keeps_removeItem.bind fun _ => keeps_pure _
  | contains key => exact keeps_context.bind fun _ => keeps_pure _
  | size => exact keeps_context.bind fun _ => keeps_pure _
  | names => exact keeps_context.bind fun _ => keeps_pure _
  | shown => exact keeps_context.bind fun _ => keeps_pure _
  | isFrozen => exact keeps_context.bind fun _ => keeps_pure _
  | freeze =>
      exact fun recorded => {
        faithful := fun faithful => ⟨faithful.current.freeze, faithful.other⟩
        history := List.prefix_append _ _
        other := rfl }
  | copy => exact absurd rfl notCopy
  | swap => exact absurd rfl notSwap
  | lookup key => exact keeps_nameOf.bind fun _ => keeps_context.bind fun _ => keeps_pure _
  | setDefault key value => exact keeps_setDefault.bind fun _ => keeps_pure _
  | registerAliases =>
      exact keeps_context.bind fun _ => (keeps_addAliases _).bind fun _ => keeps_pure _
  | update members => exact (keeps_setItems members).bind fun _ => keeps_pure _
  | pop key default => exact keeps_pop default
  | popFirst => exact keeps_popFirst.bind fun _ => keeps_pure _
  | getOrSet key value => exact keeps_getOrSet
  | clear => exact keeps_context.bind fun _ => (keeps_takeOut _).bind fun _ => keeps_pure _

end Keeping

end Stepwise

namespace RecordedSession

theorem Faithful.after {recorded : RecordedSession} (faithful : recorded.Faithful)
    (operation : ContextOperation) : (recorded.after operation).Faithful := by
  by_cases isCopy : operation = .copy
  · subst isCopy
    exact ⟨faithful.current.thaw, faithful.current⟩
  · by_cases isSwap : operation = .swap
    · subst isSwap
      exact ⟨faithful.other, faithful.current⟩
    · exact (Stepwise.keeps_of operation isCopy isSwap recorded).faithful faithful

theorem faithful_run (data : Members) (operations : List ContextOperation) :
    (run data operations).Faithful := by
  have later (recorded : RecordedSession) (faithful : recorded.Faithful) :
      (operations.foldl RecordedSession.after recorded).Faithful := by
    induction operations generalizing recorded with
    | nil => exact faithful
    | cons operation operations ih => exact ih _ (faithful.after operation)
  have start : Faithful {} := ⟨.empty, .empty⟩
  exact later _ (start.after (.update data))

/-- A frozen context stays frozen, with its items. -/
theorem Continues.of_frozen {recorded later : RecordedSession} (continues : Continues recorded later)
    (faithful : recorded.Faithful) (isFrozen : recorded.current.context.frozen = true) :
    later.current.context.frozen = true ∧
      later.current.context.items = recorded.current.context.items := by
  have follows := (continues.faithful faithful).current
  obtain ⟨changes, whole⟩ := continues.history
  have known : Change.freeze ∈ recorded.current.history := faithful.current.frozen_iff.mp isFrozen
  refine ⟨follows.frozen_iff.mpr (whole ▸ List.mem_append_left _ known), ?_⟩
  obtain ⟨before, between, isHistory⟩ := List.append_of_mem known
  rw [faithful.current.shows.items_of_frozen before between isHistory]
  refine follows.shows.items_of_frozen before (between ++ changes) ?_
  rw [← whole, isHistory, List.append_assoc, List.cons_append]

end RecordedSession

end Covenant
