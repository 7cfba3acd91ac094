import Covenant.Proofs.Context.Aliases
import Covenant.Proofs.Naming.Spellings

/-!
# Registering aliases again

An alias that is added may have an alias itself: `optie_a_b` gets `OptieAB`, and that is `optie_ab` in
the other convention.  So a second call can add names, at most the respelled names of those that had
underscores from the start.  A third call adds nothing, since every name without underscores leads back
to itself.
-/

namespace Covenant.ContextMap

variable {context once twice : ContextMap} {name other : Text} {added more : List (Text × Text)}

/-- The alias of every name is a name. -/
def HasAliases (context : ContextMap) : Prop :=
  ∀ name ∈ context.names, ∀ other, Naming.alias? name = some other → context.contains other = true

theorem mem_names_iff : name ∈ context.names ↔ ∃ item ∈ context.items, item.1 = name := by
  simp [names, items]

theorem contains_of_mem (member : name ∈ context.names) : context.contains name = true := by
  obtain ⟨item, isItem, rfl⟩ := mem_names_iff.mp member
  exact contains_iff_items.mpr ⟨item, isItem, by simp [Text.sameLower]⟩

namespace AddsAliases

variable (adds : context.AddsAliases context.items added once)
include adds

theorem mem_names : name ∈ once.names ↔ name ∈ context.names ∨ ∃ item ∈ added, item.1 = name := by
  rw [mem_names_iff, mem_names_iff, adds.items_eq]
  simp only [List.mem_append, or_and_right, exists_or]

theorem contains_of_contains (known : context.contains name = true) : once.contains name = true :=
  adds.contains_iff_added.mpr (.inl known)

theorem contains_alias (member : name ∈ context.names) (isAlias : Naming.alias? name = some other) :
    once.contains other = true := by
  obtain ⟨item, isItem, rfl⟩ := mem_names_iff.mp member
  exact adds.reached item isItem other isAlias

/-- An added name is the alias of a name that was there. -/
theorem exists_source {item : Text × Text} (member : item ∈ added) :
    ∃ name ∈ context.names, Naming.alias? name = some item.1 := by
  obtain ⟨earlier, name, later, sources, isAlias, -⟩ := adds.first_source item member
  exact ⟨name, mem_names_iff.mpr ⟨(name, item.2), by simp [sources], rfl⟩, isAlias⟩

/-- Nothing is added just where all aliases are there. -/
theorem hasAliases_iff : context.HasAliases ↔ added = [] := by
  constructor
  · intro complete
    refine List.eq_nil_iff_forall_not_mem.mpr fun item member => ?_
    obtain ⟨name, isName, isAlias⟩ := adds.exists_source member
    have known := complete name isName item.1 isAlias
    rw [adds.absent item member] at known
    cases known
  · rintro rfl name member other isAlias
    simpa using adds.contains_iff_added.mp (adds.contains_alias member isAlias)

/-- Where an added name has an alias that is no name yet, it is the joined spelling of a name with
underscores. -/
theorem underscore_of_not_contains {item : Text × Text} (member : item ∈ added)
    (isAlias : Naming.alias? item.1 = some other) (isNew : once.contains other = false) :
    ∃ source ∈ context.names, Naming.isIdentifier source = true ∧ '_' ∈ source ∧
      item.1 = Naming.pascal source := by
  obtain ⟨source, isSource, fromSource⟩ := adds.exists_source member
  by_cases underscore : '_' ∈ source
  · obtain ⟨identifier, spelled, -⟩ := Naming.alias?_eq_some_iff.mp fromSource
    exact ⟨source, isSource, identifier, underscore, spelled.trans (if_pos underscore)⟩
  · have same := (Naming.alias?_of_not_mem underscore fromSource).2 other isAlias
    rw [contains_congr same, adds.contains_of_contains (contains_of_mem isSource)] at isNew
    cases isNew

/-- All aliases are there after one call just where the names that had underscores do not lead to
further names. -/
theorem hasAliases_result_iff : once.HasAliases ↔ ∀ name ∈ context.names,
    Naming.isIdentifier name = true → '_' ∈ name → Naming.pascal name ∈ once.names →
      '_' ∈ Naming.respelled name → once.contains (Naming.respelled name) = true := by
  constructor
  · intro complete name isName identifier underscore joined respelled
    exact complete _ joined _ ((Naming.alias?_pascal_iff identifier).mpr ⟨rfl, respelled⟩)
  · intro leads name isName other isAlias
    rcases adds.mem_names.mp isName with isFirst | ⟨item, member, rfl⟩
    · exact adds.contains_alias isFirst isAlias
    · by_contra isNew
      rw [Bool.not_eq_true] at isNew
      obtain ⟨source, isSource, identifier, underscore, joined⟩ :=
        adds.underscore_of_not_contains member isAlias isNew
      rw [joined] at isAlias isName
      obtain ⟨rfl, respelled⟩ := (Naming.alias?_pascal_iff identifier).mp isAlias
      rw [leads source isSource identifier underscore isName respelled] at isNew
      cases isNew

/-- One call is enough when the words of all names with underscores show. -/
theorem hasAliases_of_isShown (shown : ∀ name ∈ context.names, Naming.isIdentifier name = true →
    '_' ∈ name → Naming.IsShown name) : once.HasAliases := by
  refine adds.hasAliases_result_iff.mpr fun name isName identifier underscore _ _ => ?_
  rw [Naming.respelled_of_isShown (shown name isName identifier underscore)]
  exact adds.contains_of_contains (contains_of_mem isName)

/-- All aliases are there after two calls. -/
theorem hasAliases_second (addsMore : once.AddsAliases once.items more twice) : twice.HasAliases := by
  refine addsMore.hasAliases_result_iff.mpr fun name isName identifier underscore joined respelled => ?_
  have isAlias := Naming.alias?_of_mem identifier underscore
  rcases addsMore.mem_names.mp joined with isEarlier | ⟨item, isMore, spelled⟩
  · exact addsMore.contains_alias isEarlier
      ((Naming.alias?_pascal_iff identifier).mpr ⟨rfl, respelled⟩)
  · -- the joined name would be new in the second call, but the first has added it
    have isNew := addsMore.absent item isMore
    rw [spelled] at isNew
    rcases adds.mem_names.mp isName with isFirst | ⟨source, isAdded, rfl⟩
    · rw [adds.contains_alias isFirst isAlias] at isNew
      cases isNew
    · obtain ⟨start, -, fromIdentifier, -, same⟩ :=
        adds.underscore_of_not_contains isAdded isAlias isNew
      rw [same] at underscore
      exact absurd underscore (Naming.not_mem_pascal (Naming.isAscii_of_isIdentifier fromIdentifier))

end AddsAliases

/-- A call on an open context adds nothing just where all aliases are there. -/
theorem registerAliases_of_hasAliases (isOpen : context.frozen = false) (complete : context.HasAliases) :
    context.registerAliases = .ok (0, context) := by
  obtain ⟨added, adds⟩ := context.exists_addsAliases
  obtain rfl := adds.hasAliases_iff.mp complete
  have answer := registerAliases_of_open isOpen adds
  rwa [adds.withAliases_eq_self] at answer

theorem frozen_ofMembers (members : Members) : (ofMembers members).frozen = false := by
  rw [ofMembers, insertAll]
  generalize starts : ({} : ContextMap) = start
  have isOpen : start.frozen = false := by rw [← starts]
  clear starts
  induction members generalizing start with
  | nil => exact isOpen
  | cons member members ih => exact ih (start.insert member.1 member.2.stored) isOpen

/-- Registering the aliases of a mapping two times always gives all of them.  The second call adds
nothing, exactly if no name with underscores leads to a further one: its joined spelling is no name as
it stands, or has no underscore when its words are separated again, or that respelled name is there. -/
theorem registerAliases_twice (members : Members) :
    ∃ added once more twice,
      (ofMembers members).registerAliases = .ok (added, once) ∧
      once.registerAliases = .ok (more, twice) ∧
      twice.registerAliases = .ok (0, twice) ∧
      twice.HasAliases ∧
      (more = 0 ↔ once.HasAliases) ∧
      (once.HasAliases ↔ ∀ name ∈ (ofMembers members).names,
        Naming.isIdentifier name = true → '_' ∈ name → Naming.pascal name ∈ once.names →
          '_' ∈ Naming.respelled name → once.contains (Naming.respelled name) = true) := by
  have isOpen := frozen_ofMembers members
  have staysOpen (context : ContextMap) : context.withAliases.frozen = context.frozen :=
    frozen_addAliases context context.entries
  obtain ⟨added, adds⟩ := (ofMembers members).exists_addsAliases
  obtain ⟨more, addsMore⟩ := (ofMembers members).withAliases.exists_addsAliases
  have complete := adds.hasAliases_second addsMore
  refine ⟨_, _, _, _, registerAliases_of_open isOpen adds,
    registerAliases_of_open ((staysOpen _).trans isOpen) addsMore,
    registerAliases_of_hasAliases ?_ complete, complete, ?_, adds.hasAliases_result_iff⟩
  · rw [staysOpen, staysOpen, isOpen]
  · rw [addsMore.hasAliases_iff, List.length_eq_zero_iff]

/-- A name whose joined spelling runs two single letters together. -/
def runTogether : ContextMap := ofMembers [("optie_a_b", .text "x")]

/-- The name gets `OptieAB`, and only that gets `optie_ab`. -/
theorem second_call_adds_runTogether :
    (runTogether.registerAliases.toOption.map fun (count, once) => (count, once.names)) =
        some (1, (["optie_a_b", "OptieAB"] : List Text)) ∧
      ((runTogether.registerAliases >>= fun (_, once) => once.registerAliases).toOption.map
          fun (count, twice) => (count, twice.names)) =
        some (1, (["optie_a_b", "OptieAB", "optie_ab"] : List Text)) := by
  decide +kernel

end Covenant.ContextMap
