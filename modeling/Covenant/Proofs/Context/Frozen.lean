import Covenant.Context.Operation
import Covenant.Proofs.Outcome
import Mathlib.Data.List.Basic

/-!
# Frozen contexts

An operation on a frozen context is refused, unless it would not change the items of an open context
with the same entries either.
-/

namespace Covenant

namespace ContextMap

variable {context : ContextMap}

theorem insertNew_thaw {name text : Text} :
    context.thaw.insertNew name text = (context.insertNew name text).thaw := by
  have same : context.thaw.contains name = context.contains name := rfl
  rw [insertNew, insertNew, same]
  split <;> rfl

theorem addAliases_thaw (entries : List Entry) :
    context.thaw.addAliases entries = (context.addAliases entries).thaw := by
  induction entries generalizing context with
  | nil => rfl
  | cons entry entries ih =>
      rw [addAliases, addAliases, List.foldl_cons, List.foldl_cons]
      split
      · rw [insertNew_thaw]
        exact ih
      · exact ih

/-- An operation on a context is refused, or it would leave these items to an open context too. -/
def RefusedOrIdle {α : Type} (items : List (Text × Text)) (frozen thawed : Outcome (α × ContextMap)) :
    Prop :=
  frozen = .error .frozenContext ∨ ∀ value next, thawed = .ok (value, next) → next.items = items

section Frozen

variable {α : Type} {items : List (Text × Text)} {key value : Value}

theorem RefusedOrIdle.of_error {frozen : Outcome (α × ContextMap)} {fault : Fault} :
    RefusedOrIdle items frozen (.error fault) := .inr nofun

theorem RefusedOrIdle.of_ok {frozen : Outcome (α × ContextMap)} {result : α} {next : ContextMap}
    (same : next.items = items) : RefusedOrIdle items frozen (.ok (result, next)) := by
  refine .inr fun value other returns => ?_
  obtain ⟨-, rfl⟩ := Prod.mk.inj (Except.ok.inj returns)
  exact same

variable (isFrozen : context.frozen = true)
include isFrozen

theorem checkOpen_of_frozen : context.checkOpen = .error .frozenContext := by
  rw [checkOpen, isFrozen]
  rfl

theorem set_of_frozen : context.set key value = .error .frozenContext := by
  rw [set, checkOpen_of_frozen isFrozen]
  rfl

theorem remove_of_frozen : context.remove key = .error .frozenContext := by
  rw [remove, checkOpen_of_frozen isFrozen]
  rfl

theorem setDefault_of_frozen :
    RefusedOrIdle context.items (context.setDefault key value) (context.thaw.setDefault key value) := by
  have same : context.thaw.hasKey key = context.hasKey key := rfl
  rw [setDefault, setDefault, same, set_of_frozen isFrozen]
  cases context.hasKey key with
  | true => exact .of_ok rfl
  | false => exact .inl rfl

theorem registerAliases_of_frozen :
    RefusedOrIdle context.items context.registerAliases context.thaw.registerAliases := by
  have same : context.thaw.withAliases = context.withAliases.thaw := addAliases_thaw _
  rw [registerAliases, registerAliases, same, checkOpen_of_frozen isFrozen]
  by_cases none : context.withAliases.size - context.size = 0
  · have noneThawed : context.withAliases.thaw.size - context.thaw.size = 0 := none
    rw [if_pos none, if_pos noneThawed]
    exact .of_ok rfl
  · rw [if_neg none]
    exact .inl rfl

theorem update_of_frozen (members : Members) :
    RefusedOrIdle context.items ((context.update members).map ((), ·))
      ((context.thaw.update members).map ((), ·)) := by
  rw [update, update, checkOpen_of_frozen isFrozen]
  cases members with
  | nil => exact .of_ok rfl
  | cons first members => exact .inl rfl

theorem pop_of_frozen (default : Option Value) :
    RefusedOrIdle context.items (context.pop key default) (context.thaw.pop key default) := by
  rw [pop, pop]
  cases key.asText with
  | error fault => exact .of_error
  | ok name =>
      have same : context.thaw.lookup name = context.lookup name := rfl
      rw [Outcome.ok_bind, Outcome.ok_bind, same, remove_of_frozen isFrozen]
      cases context.lookup name with
      | some text => exact .inl rfl
      | none =>
          cases default with
          | some value => exact .of_ok rfl
          | none => exact .of_error

theorem popFirst_of_frozen :
    RefusedOrIdle context.items context.popFirst context.thaw.popFirst := by
  have same : context.thaw.items = context.items := rfl
  rw [popFirst, popFirst, same, checkOpen_of_frozen isFrozen]
  cases context.items with
  | nil => exact .of_error
  | cons item items => exact .inl rfl

theorem getOrSet_of_frozen :
    RefusedOrIdle context.items (context.getOrSet key value) (context.thaw.getOrSet key value) := by
  rw [getOrSet, getOrSet]
  cases key.asText with
  | error fault => exact .of_error
  | ok name =>
      have same : context.thaw.lookup name = context.lookup name := rfl
      rw [Outcome.ok_bind, Outcome.ok_bind, same, set_of_frozen isFrozen]
      cases context.lookup name with
      | some text => exact .of_ok rfl
      | none => exact .inl rfl

theorem clear_of_frozen :
    RefusedOrIdle context.items (context.clear.map ((), ·)) (context.thaw.clear.map ((), ·)) := by
  have same : context.thaw.entries = context.entries := rfl
  rw [clear, clear, same, checkOpen_of_frozen isFrozen]
  cases context.entries.isEmpty with
  | true => exact .of_ok rfl
  | false => exact .inl rfl

end Frozen

end ContextMap

namespace ContextSession

variable {session : ContextSession}

/-- The session with a current context that is open. -/
def thawed (session : ContextSession) : ContextSession := session.withCurrent session.current.thaw

/-- If an operation returns, the current context has these items. -/
def Leaves (items : List (Text × Text)) (answer : Outcome (Value × ContextSession)) : Prop :=
  ∀ value next, answer = .ok (value, next) → next.current.items = items

theorem leaves_error {fault : Fault} {items : List (Text × Text)} :
    Leaves items (.error fault) := nofun

theorem leaves_ok {value : Value} {next : ContextSession} {items : List (Text × Text)}
    (same : next.current.items = items) : Leaves items (.ok (value, next)) := by
  intro value next returns
  obtain ⟨-, rfl⟩ := Prod.mk.inj (Except.ok.inj returns)
  exact same

/-- What holds of an operation on a context holds of the answer that is made of it. -/
theorem refused_or_leaves {α : Type} {frozen thawed : Outcome (α × ContextMap)}
    (still : ContextMap.RefusedOrIdle session.current.items frozen thawed) (answer : α → Value) :
    (frozen >>= fun result => .ok (answer result.1, session.withCurrent result.2)) =
        .error .frozenContext ∨
      Leaves session.current.items
        (thawed >>= fun result => .ok (answer result.1, session.thawed.withCurrent result.2)) := by
  refine still.imp (fun refused => ?_) fun idle => ?_
  · rw [refused]
    rfl
  · cases thawed with
    | error fault => exact leaves_error
    | ok result => exact leaves_ok (idle result.1 result.2 rfl)

/-- Operations that answer with nothing. -/
theorem refused_or_leaves_null {frozen thawed : Outcome ContextMap}
    (still : ContextMap.RefusedOrIdle session.current.items (frozen.map ((), ·)) (thawed.map ((), ·))) :
    (frozen >>= fun context => .ok (.null, session.withCurrent context)) =
        (.error .frozenContext : Outcome (Value × ContextSession)) ∨
      Leaves session.current.items
        (thawed >>= fun context => .ok (.null, session.thawed.withCurrent context)) := by
  have answered := refused_or_leaves still fun _ => .null
  cases frozen <;> cases thawed <;> exact answered

/-- On a frozen context an operation is refused, or it would not change the items of an open one
either. -/
theorem perform_of_frozen (isFrozen : session.current.frozen = true) (operation : ContextOperation)
    (notSwap : operation ≠ .swap) :
    session.perform operation = .error .frozenContext ∨
      Leaves session.current.items (session.thawed.perform operation) := by
  cases operation with
  | contains key => exact .inr (leaves_ok rfl)
  | size => exact .inr (leaves_ok rfl)
  | names => exact .inr (leaves_ok rfl)
  | shown => exact .inr (leaves_ok rfl)
  | isFrozen => exact .inr (leaves_ok rfl)
  | freeze => exact .inr (leaves_ok rfl)
  | copy => exact .inr (leaves_ok rfl)
  | swap => exact absurd rfl notSwap
  | get key =>
      rw [perform, perform]
      cases key.asText with
      | error fault => exact .inr leaves_error
      | ok name =>
          have same : session.thawed.current.get name = session.current.get name := rfl
          rw [Outcome.ok_bind, Outcome.ok_bind, same]
          cases session.current.get name with
          | error fault => exact .inr leaves_error
          | ok text => exact .inr (leaves_ok rfl)
  | lookup key =>
      rw [perform, perform]
      cases key.asText with
      | error fault => exact .inr leaves_error
      | ok name => exact .inr (leaves_ok rfl)
  | set key value =>
      rw [perform, ContextMap.set_of_frozen isFrozen]
      exact .inl rfl
  | remove key =>
      rw [perform, ContextMap.remove_of_frozen isFrozen]
      exact .inl rfl
  | setDefault key value => exact refused_or_leaves (ContextMap.setDefault_of_frozen isFrozen) .bool
  | registerAliases =>
      exact refused_or_leaves (ContextMap.registerAliases_of_frozen isFrozen) fun added => .int added
  | update members => exact refused_or_leaves_null (ContextMap.update_of_frozen isFrozen members)
  | pop key default => exact refused_or_leaves (ContextMap.pop_of_frozen isFrozen default) id
  | popFirst =>
      exact refused_or_leaves (ContextMap.popFirst_of_frozen isFrozen)
        fun item => .list [.text item.1, .text item.2]
  | getOrSet key value => exact refused_or_leaves (ContextMap.getOrSet_of_frozen isFrozen) id
  | clear => exact refused_or_leaves_null (ContextMap.clear_of_frozen isFrozen)

end ContextSession

end Covenant
