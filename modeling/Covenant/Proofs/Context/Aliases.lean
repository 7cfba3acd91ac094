import Covenant.Proofs.Context.Agreement

/-!
# What registering aliases adds

Aliases are registered for the items that a context has at the start, one after the other.  The alias
of an item is added with the text of the item, unless it is a name already, be it as the alias of an
earlier item.  So all that was there stays in front as it was, and of several items with the same
alias the first one gives it its spelling and its text.
-/

namespace Covenant

namespace ContextMap

variable {context result : ContextMap} {name other text : Text}
  {sources added : List (Text × Text)}

theorem contains_iff_items :
    context.contains name = true ↔ ∃ item ∈ context.items, Text.sameLower item.1 name = true := by
  rw [contains_iff, names, items]
  simp

theorem contains_congr (same : Text.sameLower other name = true) :
    context.contains other = context.contains name := by
  rw [contains, contains, lookup, lookup, beq_iff_eq.mp same]

theorem items_insertNew :
    (context.insertNew name text).items =
      if context.contains name then context.items else context.items ++ [(name, text)] := by
  have atEnd (entries : List Entry) (absent : entryWithKey? (Text.lower name) entries = none) :
      (write name text entries).map (fun entry => (entry.name, entry.text)) =
        entries.map (fun entry => (entry.name, entry.text)) ++ [(name, text)] := by
    induction entries with
    | nil => rfl
    | cons entry entries ih =>
        rw [entryWithKey?] at absent
        split at absent
        · cases absent
        · rename_i differs
          rw [write, if_neg differs, List.map_cons, List.map_cons, ih absent, List.cons_append]
  rw [insertNew]
  split
  · rfl
  · rename_i absent
    refine atEnd context.entries ?_
    simpa [contains, lookup] using absent

/-- What registering the aliases of some sources makes of a context. -/
structure AddsAliases (context : ContextMap) (sources added : List (Text × Text))
    (result : ContextMap) : Prop where
  /-- The items of before stay in front as they were. -/
  items_eq : result.items = context.items ++ added
  /-- An added item has the alias and the text of the first source with this alias, in any letter
  case. -/
  first_source : ∀ item ∈ added, ∃ earlier name later,
    sources = earlier ++ (name, item.2) :: later ∧ Naming.alias? name = some item.1 ∧
      ∀ source ∈ earlier, ∀ other, Naming.alias? source.1 = some other →
        Text.sameLower other item.1 = false
  /-- No added name was a name before. -/
  absent : ∀ item ∈ added, context.contains item.1 = false
  /-- No two added names are the same in any letter case. -/
  distinct : (added.map fun item => Text.lower item.1).Nodup
  /-- The alias of every source is a name now. -/
  reached : ∀ source ∈ sources, ∀ other, Naming.alias? source.1 = some other →
    result.contains other = true

namespace AddsAliases

theorem start (context : ContextMap) : context.AddsAliases [] [] context where
  items_eq := (List.append_nil _).symm
  first_source := nofun
  absent := nofun
  distinct := List.nodup_nil
  reached := nofun

variable (adds : context.AddsAliases sources added result)
include adds

theorem contains_iff_added : result.contains name = true ↔
    context.contains name = true ∨ ∃ item ∈ added, Text.sameLower item.1 name = true := by
  rw [contains_iff_items, contains_iff_items, adds.items_eq]
  simp only [List.mem_append, or_and_right, exists_or]

/-- A source without an alias, or with one that is a name already, adds nothing. -/
theorem skip {source : Text × Text}
    (known : ∀ other, Naming.alias? source.1 = some other → result.contains other = true) :
    context.AddsAliases (sources ++ [source]) added result where
  items_eq := adds.items_eq
  first_source item member := by
    obtain ⟨earlier, name, later, rfl, isAlias, isFirst⟩ := adds.first_source item member
    exact ⟨earlier, name, later ++ [source], by simp, isAlias, isFirst⟩
  absent := adds.absent
  distinct := adds.distinct
  reached := by
    intro item member spelling isAlias
    rcases List.mem_append.mp member with earlier | isLast
    · exact adds.reached item earlier spelling isAlias
    · obtain rfl := List.mem_singleton.mp isLast
      exact known spelling isAlias

/-- A source whose alias is no name yet adds it. -/
theorem add (isAlias : Naming.alias? name = some other) (isNew : result.contains other = false) :
    context.AddsAliases (sources ++ [(name, text)]) (added ++ [(other, text)])
      (result.insertNew other text) := by
  have items : (result.insertNew other text).items = context.items ++ (added ++ [(other, text)]) := by
    rw [items_insertNew, if_neg (by simp [isNew]), adds.items_eq, List.append_assoc]
  have notNamed := mt adds.contains_iff_added.mpr (by simp [isNew] : ¬ result.contains other = true)
  rw [not_or] at notNamed
  exact {
    items_eq := items
    first_source := by
      intro item member
      rcases List.mem_append.mp member with earlier | isLast
      · obtain ⟨before, source, later, rfl, fromSource, isFirst⟩ := adds.first_source item earlier
        exact ⟨before, source, later ++ [(name, text)], by simp, fromSource, isFirst⟩
      · obtain rfl := List.mem_singleton.mp isLast
        refine ⟨sources, name, [], rfl, isAlias, fun source isSource spelling fromSource => ?_⟩
        -- an earlier source with this alias would have made it a name
        have isName := adds.reached source isSource spelling fromSource
        by_contra same
        rw [contains_congr (Bool.not_eq_false _ ▸ same), isNew] at isName
        cases isName
    absent := by
      intro item member
      rcases List.mem_append.mp member with earlier | isLast
      · exact adds.absent item earlier
      · obtain rfl := List.mem_singleton.mp isLast
        exact Bool.eq_false_iff.mpr notNamed.1
    distinct := by
      rw [List.map_append, List.nodup_append]
      refine ⟨adds.distinct, by simp, ?_⟩
      rintro key isKey last isLast rfl
      obtain ⟨item, member, isLower⟩ := List.mem_map.mp isKey
      exact notNamed.2 ⟨item, member, beq_iff_eq.mpr (isLower.trans (List.mem_singleton.mp isLast))⟩
    reached := by
      intro source member spelling fromSource
      rw [contains_iff_items, items]
      rcases List.mem_append.mp member with earlier | isLast
      · obtain ⟨item, isItem, same⟩ :=
          contains_iff_items.mp (adds.reached source earlier spelling fromSource)
        rw [adds.items_eq] at isItem
        exact ⟨item, by rw [← List.append_assoc]; exact List.mem_append_left _ isItem, same⟩
      · obtain rfl := List.mem_singleton.mp isLast
        obtain rfl : other = spelling := Option.some.inj (isAlias.symm.trans fromSource)
        exact ⟨(other, text), by simp, by simp [Text.sameLower]⟩ }

theorem withAlias (entry : Entry) : ∃ more, context.AddsAliases (sources ++ [(entry.name, entry.text)]) more
    (Stepwise.withAlias result entry) := by
  rw [Stepwise.withAlias]
  cases isAlias : Naming.alias? entry.name with
  | none => exact ⟨added, adds.skip fun other known => by rw [isAlias] at known; cases known⟩
  | some other =>
      dsimp only
      cases isNew : result.contains other with
      | false => exact ⟨_, adds.add isAlias isNew⟩
      | true =>
          rw [insertNew, if_pos isNew]
          refine ⟨added, adds.skip fun spelling known => ?_⟩
          rw [← Option.some.inj (isAlias.symm.trans known)]
          exact isNew

theorem addAliases (entries : List Entry) :
    ∃ more, context.AddsAliases (sources ++ entries.map fun entry => (entry.name, entry.text)) more
      (result.addAliases entries) := by
  induction entries generalizing sources added result with
  | nil =>
      rw [List.map_nil, List.append_nil]
      exact ⟨added, adds⟩
  | cons entry entries ih =>
      obtain ⟨more, step⟩ := adds.withAlias entry
      rw [Stepwise.addAliases_cons, List.map_cons, List.append_cons]
      exact ih step

end AddsAliases

/-- Registering aliases goes through all items of the context. -/
theorem exists_addsAliases (context : ContextMap) :
    ∃ added, context.AddsAliases context.items added context.withAliases :=
  (AddsAliases.start context).addAliases context.entries

theorem frozen_addAliases (context : ContextMap) (entries : List Entry) :
    (context.addAliases entries).frozen = context.frozen := by
  induction entries generalizing context with
  | nil => rfl
  | cons entry entries ih => rw [Stepwise.addAliases_cons, ih, Stepwise.frozen_withAlias]

theorem AddsAliases.size_sub (adds : context.AddsAliases sources added result) :
    result.size - context.size = added.length := by
  have size (context : ContextMap) : context.size = context.items.length := by
    rw [ContextMap.size, items, List.length_map]
  rw [size, size, adds.items_eq, List.length_append, Nat.add_sub_cancel_left]

theorem AddsAliases.withAliases_eq_self
    (adds : context.AddsAliases sources [] context.withAliases) : context.withAliases = context :=
  Stepwise.addAliases_eq_self context.entries (Nat.le_of_sub_eq_zero adds.size_sub)

/-- An open context gets its aliases, and they are counted. -/
theorem registerAliases_of_open (isOpen : context.frozen = false)
    (adds : context.AddsAliases sources added context.withAliases) :
    context.registerAliases = .ok (added.length, context.withAliases) := by
  rw [registerAliases, adds.size_sub, checkOpen, isOpen]
  split
  · rename_i none
    obtain rfl := List.length_eq_zero_iff.mp none
    rw [adds.withAliases_eq_self]
    rfl
  · rfl

end ContextMap

/-- On an open context registering aliases always answers with the number of items it adds.  The items
of before stay a prefix of the items, each added item has alias and text of the first item with
this alias, and every item's alias is a name. -/
theorem ContextSession.registerAliases_adds (session : ContextSession)
    (isOpen : session.current.frozen = false) :
    ∃ added result,
      session.perform .registerAliases =
        .ok (.int (added.length : Nat), session.withCurrent result) ∧
      result.frozen = false ∧
      session.current.AddsAliases session.current.items added result := by
  obtain ⟨added, adds⟩ := session.current.exists_addsAliases
  refine ⟨added, session.current.withAliases, ?_, ?_, adds⟩
  · rw [perform, ContextMap.registerAliases_of_open isOpen adds]
    rfl
  · rw [ContextMap.withAliases, ContextMap.frozen_addAliases, isOpen]

/-- Two names whose aliases differ in the case of letters only, and one of the other convention. -/
def ContextMap.collidingNames : ContextMap :=
  .ofMembers [("op_tie", .text "a"), ("opt_ie", .text "b"), ("KidCount", .text "c")]

theorem ContextSession.registerAliases_adds_collidingNames :
    let session : ContextSession := { current := .collidingNames }
    let gained : List (Text × Text) := [("OpTie", "a"), ("kid_count", "c")]
    session.current.frozen = false ∧
    ∃ added result,
      session.perform .registerAliases =
        .ok (.int (added.length : Nat), session.withCurrent result) ∧
      result.frozen = false ∧
      session.current.AddsAliases session.current.items added result ∧
      added = gained := by
  intro session gained
  obtain ⟨added, result, performed, staysOpen, adds⟩ := registerAliases_adds session rfl
  refine ⟨rfl, added, result, performed, staysOpen, adds, ?_⟩
  have isAfter : session.after .registerAliases = session.withCurrent result := by
    simp only [ContextSession.after, performed]
  have listed : (session.after .registerAliases).current.items = session.current.items ++ gained := by
    decide +kernel
  rw [isAfter] at listed
  exact List.append_cancel_left (adds.items_eq.symm.trans listed)

end Covenant
