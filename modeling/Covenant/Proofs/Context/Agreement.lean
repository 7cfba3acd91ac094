import Covenant.Proofs.Context.Stepwise

/-!
# What the steps of an operation do

The steps of every operation give what the whole operation gives, and when it fails they have done
nothing.  Aliases are added one by one; a frozen context has them all, or the first that it lacks ends
the operation.
-/

namespace Covenant

namespace Stepwise

section Agreement

variable {recorded : RecordedSession} {key value : Value} {name text : Text}

theorem outcome_setDefault_of_present (present : recorded.current.context.hasKey key = true) :
    outcome (setDefault key value) recorded = (.ok false, recorded) := by
  rw [setDefault, outcome_bind_ok outcome_context, if_pos present]
  rfl

theorem agrees_setDefault :
    Agrees (setDefault key value) recorded (recorded.current.context.setDefault key value) := by
  rw [ContextMap.setDefault]
  split
  · rename_i present
    exact ⟨recorded, outcome_setDefault_of_present present, rfl, rfl⟩
  · rename_i absent
    refine Agrees.after ?_ outcome_context
    rw [if_neg absent]
    have written := (@agrees_setItem recorded key value).map fun _ => true
    cases set : recorded.current.context.set key value with
    | error fault => rwa [set] at written
    | ok context => rwa [set] at written

theorem setDefault_of_open {context : ContextMap} (isOpen : context.frozen = false) :
    context.setDefault (.text name) (.text text) =
      .ok (!context.contains name, context.insertNew name text) := by
  rw [ContextMap.setDefault, ContextMap.hasKey, ContextMap.insertNew, ContextMap.set,
    ContextMap.checkOpen, isOpen]
  cases context.contains name <;> rfl

theorem size_insertNew (context : ContextMap) :
    (context.insertNew name text).size = (!context.contains name).toNat + context.size := by
  have length (context : ContextMap) : context.size = context.names.length := by
    rw [ContextMap.size, ContextMap.names, List.length_map]
  rw [length, length, ContextMap.names_insertNew, addSpelling]
  have known : context.names.any (Text.sameLower · name) = context.contains name := by
    rw [Bool.eq_iff_iff, ContextMap.contains_iff, List.any_eq_true]
  rw [known]
  cases context.contains name <;> simp [Nat.add_comm]

theorem addAliases_cons (context : ContextMap) (entry : Entry) (entries : List Entry) :
    context.addAliases (entry :: entries) = (withAlias context entry).addAliases entries := rfl

theorem frozen_withAlias (context : ContextMap) (entry : Entry) :
    (withAlias context entry).frozen = context.frozen := by
  rw [withAlias]
  split
  · rw [ContextMap.insertNew]
    split <;> rfl
  · rfl

theorem size_le_size_addAliases (context : ContextMap) (entries : List Entry) :
    context.size ≤ (context.addAliases entries).size := by
  induction entries generalizing context with
  | nil => exact Nat.le_refl _
  | cons entry entries ih =>
      have first : context.size ≤ (withAlias context entry).size := by
        rw [withAlias]
        split
        · rw [size_insertNew]
          omega
        · exact Nat.le_refl _
      rw [addAliases_cons]
      exact Nat.le_trans first (ih _)

theorem addAliases_eq_self {context : ContextMap} (entries : List Entry)
    (none : (context.addAliases entries).size ≤ context.size) : context.addAliases entries = context := by
  induction entries with
  | nil => rfl
  | cons entry entries ih =>
      rw [addAliases_cons] at none ⊢
      have fits : (withAlias context entry).size ≤ context.size :=
        Nat.le_trans (size_le_size_addAliases _ entries) none
      have same : withAlias context entry = context := by
        rw [withAlias] at fits ⊢
        split
        · rename_i other isAlias
          simp only [isAlias, size_insertNew] at fits
          cases present : context.contains other with
          | true => rw [ContextMap.insertNew, if_pos present]
          | false =>
              rw [present, Bool.not_false, Bool.toNat_true] at fits
              omega
        · rfl
      rw [same] at none ⊢
      exact ih none

theorem addAlias_of_open (entry : Entry) (isOpen : recorded.current.context.frozen = false) :
    ∃ added, Agrees (addAlias entry) recorded (.ok (added, withAlias recorded.current.context entry)) ∧
      (withAlias recorded.current.context entry).size =
        added.toNat + recorded.current.context.size := by
  unfold addAlias withAlias
  split
  · rename_i other isAlias
    have agrees := @agrees_setDefault recorded (.text other) (.text entry.text)
    rw [setDefault_of_open isOpen] at agrees
    exact ⟨_, agrees, size_insertNew _⟩
  · exact ⟨false, ⟨recorded, rfl, rfl, rfl⟩, (Nat.zero_add _).symm⟩

/-- An open context gets all aliases. -/
theorem addAliases_of_open (entries : List Entry) (isOpen : recorded.current.context.frozen = false) :
    Agrees (addAliases entries) recorded
      (.ok ((recorded.current.context.addAliases entries).size - recorded.current.context.size,
        recorded.current.context.addAliases entries)) := by
  induction entries generalizing recorded with
  | nil =>
      refine ⟨recorded, ?_, rfl, rfl⟩
      rw [ContextMap.addAliases, List.foldl_nil, Nat.sub_self]
      rfl
  | cons entry entries ih =>
      obtain ⟨added, ⟨later, returns, isContext, sameOther⟩, size⟩ := addAlias_of_open entry isOpen
      obtain ⟨final, more, isFinal, finalOther⟩ :=
        @ih later (by rw [isContext, frozen_withAlias, isOpen])
      rw [isContext] at isFinal more
      refine ⟨final, ?_, isFinal, finalOther.trans sameOther⟩
      have grows := size_le_size_addAliases (withAlias recorded.current.context entry) entries
      have sum : added.toNat + (((withAlias recorded.current.context entry).addAliases entries).size -
          (withAlias recorded.current.context entry).size) =
            ((withAlias recorded.current.context entry).addAliases entries).size -
              recorded.current.context.size := by
        omega
      rw [addAliases, outcome_bind_ok returns, outcome_bind_ok more, addAliases_cons, sum]
      rfl

theorem addAlias_of_frozen (entry : Entry) (frozen : recorded.current.context.frozen = true) :
    outcome (addAlias entry) recorded = (.ok false, recorded) ∧
        withAlias recorded.current.context entry = recorded.current.context ∨
      outcome (addAlias entry) recorded = (.error .frozenContext, recorded) ∧
        recorded.current.context.size < (withAlias recorded.current.context entry).size := by
  unfold addAlias withAlias
  split
  · rename_i other isAlias
    have agrees := @agrees_setDefault recorded (.text other) (.text entry.text)
    rw [size_insertNew, ContextMap.insertNew]
    cases present : recorded.current.context.contains other with
    | true => exact .inl ⟨outcome_setDefault_of_present present, rfl⟩
    | false =>
        have refused : recorded.current.context.setDefault (.text other) (.text entry.text) =
            .error .frozenContext := by
          rw [ContextMap.setDefault, ContextMap.hasKey, present, ContextMap.set, ContextMap.checkOpen,
            frozen]
          rfl
        rw [refused] at agrees
        exact .inr ⟨agrees, by simp⟩
  · exact .inl ⟨rfl, rfl⟩

/-- A frozen context has all aliases, or the first that it lacks ends the operation. -/
theorem addAliases_of_frozen (entries : List Entry) (frozen : recorded.current.context.frozen = true) :
    Agrees (addAliases entries) recorded
      (if (recorded.current.context.addAliases entries).size - recorded.current.context.size = 0 then
        .ok (0, recorded.current.context)
      else .error .frozenContext) := by
  induction entries with
  | nil =>
      rw [ContextMap.addAliases, List.foldl_nil, Nat.sub_self, if_pos rfl]
      exact ⟨recorded, rfl, rfl, rfl⟩
  | cons entry entries ih =>
      rw [addAliases_cons]
      rcases addAlias_of_frozen entry frozen with ⟨returns, same⟩ | ⟨fails, grows⟩
      · rw [same]
        rw [addAliases]
        refine Agrees.after ?_ returns
        have counted := ih.map fun more => false.toNat + more
        split
        · rename_i none
          rwa [if_pos none] at counted
        · rename_i some
          rwa [if_neg some] at counted
      · have more := size_le_size_addAliases (withAlias recorded.current.context entry) entries
        rw [if_neg (by omega)]
        exact outcome_bind_error fails

theorem agrees_registerAliases :
    Agrees (context >>= fun context => addAliases context.entries) recorded
      recorded.current.context.registerAliases := by
  refine Agrees.after ?_ outcome_context
  rw [ContextMap.registerAliases, ContextMap.withAliases, ContextMap.checkOpen]
  cases isFrozen : recorded.current.context.frozen with
  | true => exact addAliases_of_frozen _ isFrozen
  | false =>
      have agrees := addAliases_of_open recorded.current.context.entries isFrozen
      split
      · rename_i none
        rwa [none, addAliases_eq_self _ (Nat.le_of_sub_eq_zero none)] at agrees
      · exact agrees

theorem agrees_setItems (members : Members) :
    Agrees (setItems members) recorded ((recorded.current.context.update members).map ((), ·)) := by
  rw [ContextMap.update, ContextMap.checkOpen]
  cases isFrozen : recorded.current.context.frozen with
  | true =>
      cases members with
      | nil => exact ⟨recorded, rfl, rfl, rfl⟩
      | cons first members =>
          refine outcome_bind_error ?_
          have steps := @outcome_setItem recorded (.text first.1) first.2
          rwa [ContextMap.checkOpen, isFrozen] at steps
  | false =>
      have open_ (members : Members) : Agrees (setItems members) recorded
          (.ok ((), recorded.current.context.insertAll members)) := by
        induction members generalizing recorded with
        | nil => exact ⟨recorded, rfl, rfl, rfl⟩
        | cons first members ih =>
            have steps := @outcome_setItem recorded (.text first.1) first.2
            rw [ContextMap.checkOpen, isFrozen] at steps
            unfold Agrees setItems
            rw [outcome_bind_ok steps]
            exact ih isFrozen
      cases members with
      | nil => exact open_ []
      | cons first members => exact open_ (first :: members)

theorem agrees_pop (default : Option Value) :
    Agrees (pop key default) recorded (recorded.current.context.pop key default) := by
  rw [pop, ContextMap.pop]
  cases isText : key.asText with
  | error fault => exact outcome_bind_error (outcome_nameOf.trans (by rw [isText]))
  | ok name =>
      refine Agrees.after ?_ (outcome_nameOf.trans (by rw [isText]))
      refine Agrees.after ?_ outcome_context
      rw [Outcome.ok_bind]
      cases recorded.current.context.lookup name with
      | some text =>
          have removed := (@agrees_removeItem recorded key).map fun _ => Value.text text
          cases remove : recorded.current.context.remove key with
          | error fault => rwa [remove] at removed
          | ok context => rwa [remove] at removed
      | none =>
          cases default with
          | some value => exact ⟨recorded, rfl, rfl, rfl⟩
          | none => rfl

theorem agrees_getOrSet :
    Agrees (getOrSet key value) recorded (recorded.current.context.getOrSet key value) := by
  rw [getOrSet, ContextMap.getOrSet]
  cases isText : key.asText with
  | error fault => exact outcome_bind_error (outcome_nameOf.trans (by rw [isText]))
  | ok name =>
      refine Agrees.after ?_ (outcome_nameOf.trans (by rw [isText]))
      refine Agrees.after ?_ outcome_context
      rw [Outcome.ok_bind]
      cases recorded.current.context.lookup name with
      | some text => exact ⟨recorded, rfl, rfl, rfl⟩
      | none =>
          have written := (@agrees_setItem recorded key value).map
            fun _ => value
          cases set : recorded.current.context.set key value with
          | error fault => rwa [set] at written
          | ok context => rwa [set] at written

theorem lookup_head {context : ContextMap} {entry : Entry} {entries : List Entry}
    (isFirst : context.entries = entry :: entries) : context.lookup entry.name = some entry.text := by
  rw [ContextMap.lookup, isFirst, ContextMap.entryWithKey?, if_pos entry.key_eq]
  rfl

/-- The first entry is found under its own name. -/
theorem agrees_popFirst : Agrees popFirst recorded recorded.current.context.popFirst := by
  rw [ContextMap.popFirst, ContextMap.items]
  refine Agrees.after ?_ outcome_context
  rw [ContextMap.names]
  cases isEntries : recorded.current.context.entries with
  | nil => rfl
  | cons entry entries =>
      have found : recorded.current.context.get entry.name = .ok entry.text := by
        rw [ContextMap.get, lookup_head isEntries]
      refine Agrees.after ?_ (outcome_getItem.trans (Prod.ext found rfl))
      have removed := (@agrees_removeItem recorded (.text entry.name)).map
        fun _ => (entry.name, entry.text)
      rw [ContextMap.remove] at removed
      cases isOpen : recorded.current.context.checkOpen with
      | error fault => rwa [isOpen] at removed
      | ok done =>
          rw [isOpen, Outcome.ok_bind] at removed
          change Agrees _ _ (((recorded.current.context.get entry.name >>= fun _ =>
            .ok (recorded.current.context.erase entry.name)).map _).map _) at removed
          rwa [found] at removed

theorem popFirst_cons {context : ContextMap} {entry : Entry} {entries : List Entry}
    (isEntries : context.entries = entry :: entries) :
    context.popFirst = context.checkOpen.map fun _ =>
      ((entry.name, entry.text), context.erase entry.name) := by
  rw [ContextMap.popFirst, ContextMap.items, isEntries]
  cases context.checkOpen <;> rfl

theorem eq_empty_of_open {context : ContextMap} (isOpen : context.frozen = false)
    (isEmpty : context.entries = []) : context = {} := by
  rw [← isEmpty, ← isOpen]

theorem takeOut_of_open (count : Nat) (isOpen : recorded.current.context.frozen = false)
    (enough : recorded.current.context.size ≤ count) :
    Agrees (takeOut count) recorded (.ok ((), {})) := by
  induction count generalizing recorded with
  | zero =>
      have isEmpty := List.eq_nil_of_length_eq_zero (Nat.le_zero.mp enough)
      exact ⟨recorded, rfl, eq_empty_of_open isOpen isEmpty, rfl⟩
  | succ count ih =>
      rw [takeOut]
      refine Agrees.after ?_ outcome_context
      cases isEntries : recorded.current.context.entries with
      | nil => exact ⟨recorded, rfl, eq_empty_of_open isOpen isEntries, rfl⟩
      | cons entry entries =>
          have taken := @agrees_popFirst recorded
          rw [popFirst_cons isEntries, ContextMap.checkOpen, isOpen] at taken
          obtain ⟨later, returns, isContext, sameOther⟩ := taken
          have smaller : later.current.context.size ≤ count := by
            have left : (recorded.current.context.erase entry.name).entries.length ≤ entries.length := by
              rw [ContextMap.erase, isEntries, List.filter_cons_of_neg (by simp [entry.key_eq])]
              exact List.length_filter_le _ _
            rw [ContextMap.size, isEntries, List.length_cons] at enough
            rw [isContext]
            exact Nat.le_trans left (Nat.le_of_succ_le_succ enough)
          obtain ⟨final, more, isFinal, finalOther⟩ := ih (by rw [isContext]; exact isOpen) smaller
          refine ⟨final, ?_, isFinal, finalOther.trans sameOther⟩
          rw [List.isEmpty_cons, if_neg Bool.false_ne_true, outcome_bind_ok returns, more]

theorem agrees_clear :
    Agrees (context >>= fun context => takeOut context.size) recorded
      (recorded.current.context.clear.map ((), ·)) := by
  refine Agrees.after ?_ outcome_context
  rw [ContextMap.clear, ContextMap.checkOpen]
  cases isFrozen : recorded.current.context.frozen with
  | false =>
      have agrees := takeOut_of_open _ isFrozen (Nat.le_refl recorded.current.context.size)
      cases isEntries : recorded.current.context.entries with
      | nil =>
          rw [← eq_empty_of_open isFrozen isEntries] at agrees
          exact agrees
      | cons entry entries => exact agrees
  | true =>
      rw [ContextMap.size]
      cases isEntries : recorded.current.context.entries with
      | nil => exact ⟨recorded, rfl, rfl, rfl⟩
      | cons entry entries =>
          rw [List.length_cons, takeOut]
          refine Agrees.after ?_ outcome_context
          have refused := @agrees_popFirst recorded
          rw [popFirst_cons isEntries, ContextMap.checkOpen, isFrozen] at refused
          rw [isEntries]
          exact outcome_bind_error refused

end Agreement

/-- Steps give the answer and the session of a whole operation.  When it fails, nothing has been
done. -/
def Performs (steps : Stepwise Value) (recorded : RecordedSession) :
    Outcome (Value × ContextSession) → Prop
  | .ok (value, session) => ∃ later, outcome steps recorded = (.ok value, later) ∧
      later.session = session
  | .error fault => outcome steps recorded = (.error fault, recorded)

variable {recorded : RecordedSession}

theorem Agrees.performs {steps : Stepwise Value} {whole : Outcome (Value × ContextMap)}
    (agrees : Agrees steps recorded whole) :
    Performs steps recorded
      (whole >>= fun result => .ok (result.1, recorded.session.withCurrent result.2)) := by
  cases whole with
  | error fault => exact agrees
  | ok result =>
      obtain ⟨later, returns, isContext, sameOther⟩ := agrees
      refine ⟨later, returns, ?_⟩
      rw [RecordedSession.session, isContext, sameOther]
      rfl

theorem Agrees.answers {α : Type} {steps : Stepwise α} {whole : Outcome (α × ContextMap)}
    (agrees : Agrees steps recorded whole) (answer : α → Value) :
    Performs (steps >>= fun value => pure (answer value)) recorded
      (whole >>= fun result => .ok (answer result.1, recorded.session.withCurrent result.2)) := by
  have performs := (agrees.map answer).performs
  cases whole with
  | error fault => exact performs
  | ok result => exact performs

/-- Steps that answer with nothing. -/
theorem Agrees.answersNull {steps : Stepwise Unit} {whole : Outcome ContextMap}
    (agrees : Agrees steps recorded (whole.map ((), ·))) :
    Performs (steps >>= fun _ => pure .null) recorded
      (whole >>= fun context => .ok (.null, recorded.session.withCurrent context)) := by
  have performs := agrees.answers fun _ => .null
  cases whole with
  | error fault => exact performs
  | ok context => exact performs

/-- The steps of an operation do what the operation does. -/
theorem of_performs (operation : ContextOperation) :
    Performs (of operation) recorded (recorded.session.perform operation) := by
  cases operation with
  | get key =>
      have found := @outcome_getItem recorded key
      rw [of, ContextSession.perform]
      cases isText : key.asText with
      | error fault =>
          rw [isText] at found
          exact outcome_bind_error found
      | ok name =>
          rw [isText, Outcome.ok_bind] at found
          rw [Outcome.ok_bind]
          change Performs _ _ (recorded.current.context.get name >>= fun text => .ok (.text text, _))
          cases present : recorded.current.context.get name with
          | error fault =>
              rw [present] at found
              exact outcome_bind_error found
          | ok text =>
              rw [present] at found
              exact ⟨recorded, outcome_bind_ok found, rfl⟩
  | lookup key =>
      rw [of, ContextSession.perform]
      cases isText : key.asText with
      | error fault => exact outcome_bind_error (outcome_nameOf.trans (by rw [isText]))
      | ok name => exact ⟨recorded, outcome_bind_ok (outcome_nameOf.trans (by rw [isText])), rfl⟩
  | set key value => exact agrees_setItem.answersNull
  | remove key => exact agrees_removeItem.answersNull
  | setDefault key value => exact agrees_setDefault.answers .bool
  | registerAliases => exact agrees_registerAliases.answers fun added => .int added
  | update members => exact (agrees_setItems members).answersNull
  | pop key default => exact (agrees_pop default).performs
  | popFirst => exact agrees_popFirst.answers fun item => .list [.text item.1, .text item.2]
  | getOrSet key value => exact agrees_getOrSet.performs
  | clear => exact agrees_clear.answersNull
  | contains key => exact ⟨recorded, rfl, rfl⟩
  | size => exact ⟨recorded, rfl, rfl⟩
  | names => exact ⟨recorded, rfl, rfl⟩
  | shown => exact ⟨recorded, rfl, rfl⟩
  | isFrozen => exact ⟨recorded, rfl, rfl⟩
  | freeze => exact ⟨_, rfl, rfl⟩
  | copy => exact ⟨_, rfl, rfl⟩
  | swap => exact ⟨_, rfl, rfl⟩

end Stepwise

end Covenant
