import Covenant.Context.Operation
import Covenant.Proofs.Context.History
import Covenant.Proofs.Outcome

/-!
# Operations in steps

An operation on a context is made of single writes and single removals.  A step that fails ends the
operation, and what the steps before it have done remains.  `Stepwise.of` says how each operation is
made of steps, and keeps the history of both contexts of a session on the way: every write, removal
and freezing that succeeds is recorded, and nothing else.  `Stepwise.Agrees` says that steps give what
a whole operation gives.
-/

namespace Covenant

/-- A context with the changes that were made to it. -/
structure RecordedContext where
  context : ContextMap := {}
  history : History := []

namespace RecordedContext

def write (name text : Text) (recorded : RecordedContext) : RecordedContext :=
  ⟨recorded.context.insert name text, recorded.history ++ [.write name text]⟩

def remove (name : Text) (recorded : RecordedContext) : RecordedContext :=
  ⟨recorded.context.erase name, recorded.history ++ [.remove name]⟩

def freeze (recorded : RecordedContext) : RecordedContext :=
  ⟨recorded.context.freeze, recorded.history ++ [.freeze]⟩

def copy (recorded : RecordedContext) : RecordedContext :=
  ⟨recorded.context.thaw, recorded.history.thawed⟩

end RecordedContext

/-- A session that keeps the histories of its contexts. -/
structure RecordedSession where
  current : RecordedContext := {}
  other : RecordedContext := {}

namespace RecordedSession

def session (recorded : RecordedSession) : ContextSession :=
  { current := recorded.current.context, other := recorded.other.context }

def mapCurrent (f : RecordedContext → RecordedContext) (recorded : RecordedSession) :
    RecordedSession := { recorded with current := f recorded.current }

end RecordedSession

/-- Steps that may fail and leave the session as it is then. -/
abbrev Stepwise (α : Type) := ExceptT Fault (StateM RecordedSession) α

namespace Stepwise

def context : Stepwise ContextMap := return (← get).current.context

def checkOpen : Stepwise Unit := do
  if (← context).frozen then throw .frozenContext

/-- The text of a key; a key of another kind fails. -/
def nameOf (key : Value) : Stepwise Text :=
  match key.asText with
  | .ok name => return name
  | .error fault => throw fault

def getItem (key : Value) : Stepwise Text := do
  let name ← nameOf key
  match (← context).lookup name with
  | some text => return text
  | none => throw (.unknownName (Text.lower name))

def setItem (key value : Value) : Stepwise Unit := do
  checkOpen
  let name ← nameOf key
  modify (·.mapCurrent (·.write name value.stored))

def removeItem (key : Value) : Stepwise Unit := do
  checkOpen
  let _ ← getItem key
  let name ← nameOf key
  modify (·.mapCurrent (·.remove name))

def setDefault (key value : Value) : Stepwise Bool := do
  if (← context).hasKey key then return false
  else
    setItem key value
    return true

/-- Adds the alias of an entry where that is absent. -/
def addAlias (entry : Entry) : Stepwise Bool :=
  match Naming.alias? entry.name with
  | some other => setDefault (.text other) (.text entry.text)
  | none => return false

/-- The context after the alias of an entry has been added. -/
def withAlias (context : ContextMap) (entry : Entry) : ContextMap :=
  match Naming.alias? entry.name with
  | some other => context.insertNew other entry.text
  | none => context

/-- Adds the aliases of entries, and counts the additions. -/
def addAliases : List Entry → Stepwise Nat
  | [] => return 0
  | entry :: entries => do
      let added ← addAlias entry
      let more ← addAliases entries
      return added.toNat + more

def setItems : Members → Stepwise Unit
  | [] => return ()
  | (name, value) :: members => do
      setItem (.text name) value
      setItems members

def pop (key : Value) (default : Option Value) : Stepwise Value := do
  let name ← nameOf key
  match (← context).lookup name, default with
  | some text, _ => do
      removeItem key
      return .text text
  | none, some value => return value
  | none, none => throw (.unknownName (Text.lower name))

def popFirst : Stepwise (Text × Text) := do
  match (← context).names with
  | [] => throw .emptyContext
  | name :: _ => do
      let text ← getItem (.text name)
      removeItem (.text name)
      return (name, text)

def getOrSet (key value : Value) : Stepwise Value := do
  let name ← nameOf key
  match (← context).lookup name with
  | some text => return .text text
  | none => do
      setItem key value
      return value

/-- Takes out the first entry as long as there is one, up to a number of times. -/
def takeOut : Nat → Stepwise Unit
  | 0 => return ()
  | count + 1 => do
      if (← context).entries.isEmpty then return ()
      else
        let _ ← popFirst
        takeOut count

/-- The steps of an operation. -/
def of : ContextOperation → Stepwise Value
  | .get key => return .text (← getItem key)
  | .set key value => do
      setItem key value
      return .null
  | .remove key => do
      removeItem key
      return .null
  | .contains key => return .bool ((← context).hasKey key)
  | .size => return .int (← context).size
  | .names => return .list ((← context).names.map .text)
  | .shown => return .text (← context).shown
  | .isFrozen => return .bool (← context).frozen
  | .freeze => do
      modify (·.mapCurrent (·.freeze))
      return .bool true
  | .copy => do
      modify fun recorded => { current := recorded.current.copy, other := recorded.current }
      return .null
  | .swap => do
      modify fun recorded => { current := recorded.other, other := recorded.current }
      return .null
  | .lookup key => do
      let name ← nameOf key
      return (((← context).lookup name).map Value.text).getD .null
  | .setDefault key value => return .bool (← setDefault key value)
  | .registerAliases => do
      let added ← addAliases (← context).entries
      return .int added
  | .update members => do
      setItems members
      return .null
  | .pop key default => pop key default
  | .popFirst => do
      let (name, text) ← popFirst
      return .list [.text name, .text text]
  | .getOrSet key value => getOrSet key value
  | .clear => do
      takeOut (← context).size
      return .null

/-- What steps give in a session, and the session after them. -/
def outcome {α : Type} (steps : Stepwise α) (recorded : RecordedSession) :
    Outcome α × RecordedSession := steps.run.run recorded

section Outcome

variable {α β : Type} {first : Stepwise α} {next : α → Stepwise β} {recorded later : RecordedSession}
  {value : α} {fault : Fault}

theorem outcome_bind_ok (returns : outcome first recorded = (.ok value, later)) :
    outcome (first >>= next) recorded = outcome (next value) later := by
  unfold outcome at returns ⊢
  rw [ExceptT.run_bind, StateT.run_bind, returns]
  rfl

theorem outcome_bind_error (fails : outcome first recorded = (.error fault, later)) :
    outcome (first >>= next) recorded = (.error fault, later) := by
  unfold outcome at fails ⊢
  rw [ExceptT.run_bind, StateT.run_bind, fails]
  rfl

end Outcome

/-! ### Steps and whole operations -/

/-- Steps give what a whole operation on the current context gives.  When it fails, nothing has been
done. -/
def Agrees {α : Type} (steps : Stepwise α) (recorded : RecordedSession) :
    Outcome (α × ContextMap) → Prop
  | .ok (value, context) => ∃ later, outcome steps recorded = (.ok value, later) ∧
      later.current.context = context ∧ later.other = recorded.other
  | .error fault => outcome steps recorded = (.error fault, recorded)

section Agreement

variable {recorded : RecordedSession} {key value : Value} {name text : Text}

theorem outcome_context : outcome context recorded = (.ok recorded.current.context, recorded) := rfl

theorem outcome_checkOpen :
    outcome checkOpen recorded = (recorded.current.context.checkOpen, recorded) := by
  rw [checkOpen, outcome_bind_ok outcome_context, ContextMap.checkOpen]
  split <;> rfl

theorem outcome_nameOf : outcome (nameOf key) recorded = (key.asText, recorded) := by
  unfold nameOf
  cases key.asText <;> rfl

theorem outcome_getItem :
    outcome (getItem key) recorded = (key.asText >>= recorded.current.context.get, recorded) := by
  unfold getItem
  cases isText : key.asText with
  | error fault => exact outcome_bind_error (outcome_nameOf.trans (by rw [isText]))
  | ok name =>
      rw [outcome_bind_ok (outcome_nameOf.trans (by rw [isText])), outcome_bind_ok outcome_context,
        Outcome.ok_bind, ContextMap.get]
      cases recorded.current.context.lookup name <;> rfl

theorem outcome_setItem :
    outcome (setItem key value) recorded =
      match recorded.current.context.checkOpen >>= fun _ => key.asText with
      | .ok name => (.ok (), recorded.mapCurrent (·.write name value.stored))
      | .error fault => (.error fault, recorded) := by
  unfold setItem
  cases isOpen : recorded.current.context.checkOpen with
  | error fault => exact outcome_bind_error (outcome_checkOpen.trans (by rw [isOpen]))
  | ok done =>
      rw [outcome_bind_ok (outcome_checkOpen.trans (by rw [isOpen])), Outcome.ok_bind]
      cases isText : key.asText with
      | error fault => exact outcome_bind_error (outcome_nameOf.trans (by rw [isText]))
      | ok name =>
          rw [outcome_bind_ok (outcome_nameOf.trans (by rw [isText]))]
          rfl

theorem outcome_removeItem :
    outcome (removeItem key) recorded =
      match recorded.current.context.checkOpen >>= fun _ => key.asText >>= fun name =>
        (recorded.current.context.get name).map fun _ => name with
      | .ok name => (.ok (), recorded.mapCurrent (·.remove name))
      | .error fault => (.error fault, recorded) := by
  unfold removeItem
  cases isOpen : recorded.current.context.checkOpen with
  | error fault => exact outcome_bind_error (outcome_checkOpen.trans (by rw [isOpen]))
  | ok done =>
      rw [outcome_bind_ok (outcome_checkOpen.trans (by rw [isOpen])), Outcome.ok_bind]
      cases isText : key.asText with
      | error fault => exact outcome_bind_error (outcome_getItem.trans (by rw [isText]; rfl))
      | ok name =>
          rw [Outcome.ok_bind]
          cases present : recorded.current.context.get name with
          | error fault =>
              exact outcome_bind_error (outcome_getItem.trans (by rw [isText, Outcome.ok_bind, present]))
          | ok text =>
              rw [outcome_bind_ok (outcome_getItem.trans (by rw [isText, Outcome.ok_bind, present])),
                outcome_bind_ok (outcome_nameOf.trans (by rw [isText]))]
              rfl

theorem agrees_setItem :
    Agrees (setItem key value) recorded ((recorded.current.context.set key value).map ((), ·)) := by
  have steps := @outcome_setItem recorded key value
  rw [ContextMap.set]
  cases isOpen : recorded.current.context.checkOpen with
  | error fault => rwa [isOpen] at steps
  | ok done =>
      cases isText : key.asText with
      | error fault => rwa [isOpen, isText] at steps
      | ok name =>
          rw [isOpen, isText] at steps
          exact ⟨_, steps, rfl, rfl⟩

theorem agrees_removeItem :
    Agrees (removeItem key) recorded ((recorded.current.context.remove key).map ((), ·)) := by
  have steps := @outcome_removeItem recorded key
  rw [ContextMap.remove]
  cases isOpen : recorded.current.context.checkOpen with
  | error fault => rwa [isOpen] at steps
  | ok done =>
      rw [isOpen, Outcome.ok_bind] at steps
      rw [Outcome.ok_bind]
      cases isText : key.asText with
      | error fault => rwa [isText] at steps
      | ok name =>
          rw [isText, Outcome.ok_bind] at steps
          rw [Outcome.ok_bind]
          cases present : recorded.current.context.get name with
          | error fault => rwa [present] at steps
          | ok text =>
              rw [present] at steps
              exact ⟨_, steps, rfl, rfl⟩

/-- An answer made of what steps give. -/
theorem Agrees.map {α β : Type} {steps : Stepwise α} {whole : Outcome (α × ContextMap)}
    (agrees : Agrees steps recorded whole) (f : α → β) :
    Agrees (steps >>= fun value => pure (f value)) recorded
      (whole.map fun result => (f result.1, result.2)) := by
  cases whole with
  | error fault => exact outcome_bind_error agrees
  | ok result =>
      obtain ⟨later, returns, isContext, sameOther⟩ := agrees
      exact ⟨later, outcome_bind_ok returns, isContext, sameOther⟩

/-- Steps behind one that leaves the session as it is. -/
theorem Agrees.after {α β : Type} {first : Stepwise β} {steps : β → Stepwise α} {value : β}
    {whole : Outcome (α × ContextMap)} (agrees : Agrees (steps value) recorded whole)
    (returns : outcome first recorded = (.ok value, recorded)) :
    Agrees (first >>= steps) recorded whole := by
  unfold Agrees
  rw [outcome_bind_ok returns]
  exact agrees

end Agreement

end Stepwise

end Covenant
