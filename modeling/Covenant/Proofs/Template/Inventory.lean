import Covenant.Diagnostics
import Covenant.Proofs.Template.LeftAlone
import Covenant.Proofs.Template.Placed
import Mathlib.Algebra.GroupWithZero.Nat

/-!
# What a template asks for

A template asks for the names of its placeholders, once for every occurrence and whatever the context
is.  The list of placeholders counts these names without regard to case; the report counts those that
the context lacks, each spelling on its own.  So the list tells what a report will say.
-/

namespace Covenant

/-! ### Names that are counted -/

section Counting

variable {name : Text} {names : List Text} {counts : List (Text × Nat)}

/-- The count of a name in a report, all its spellings together. -/
def spellingCount (name : Text) (counts : List (Text × Nat)) : Nat :=
  ((counts.filter fun entry => Text.lower entry.1 = Text.lower name).map (·.2)).sum

theorem spellingCount_cons (entry : Text × Nat) :
    spellingCount name (entry :: counts) =
      (if Text.lower entry.1 = Text.lower name then entry.2 else 0) + spellingCount name counts := by
  rw [spellingCount, spellingCount, List.filter_cons]
  simp only [decide_eq_true_eq]
  split
  · rw [List.map_cons, List.sum_cons]
  · rw [Nat.zero_add]

theorem spellingCount_countName (other : Text) :
    spellingCount name (countName other counts) =
      spellingCount name counts + if Text.lower other = Text.lower name then 1 else 0 := by
  induction counts with
  | nil => rw [countName, spellingCount_cons, Nat.add_comm]
  | cons entry counts ih =>
      rw [countName]
      split
      · rename_i same
        subst same
        rw [spellingCount_cons, spellingCount_cons]
        split <;> omega
      · rw [spellingCount_cons, spellingCount_cons, ih, Nat.add_assoc]

theorem mem_names_countName {other : Text} :
    name ∈ (countName other counts).map (·.1) ↔ name ∈ counts.map (·.1) ∨ name = other := by
  induction counts with
  | nil => simp [countName]
  | cons entry counts ih =>
      rw [countName]
      split
      · rename_i same
        subst same
        rw [List.map_cons, List.map_cons, List.mem_cons]
        tauto
      · rw [List.map_cons, List.map_cons, List.mem_cons, List.mem_cons, ih, or_assoc]

/-- The number of times that a name is among others, in any spelling. -/
def askings (name : Text) (names : List Text) : Nat := (names.map Text.lower).count (Text.lower name)

theorem askings_cons (other : Text) :
    askings name (other :: names) =
      (if Text.lower other = Text.lower name then 1 else 0) + askings name names := by
  simp only [askings, List.map_cons, List.count_cons, beq_iff_eq]
  rw [Nat.add_comm]

theorem askings_concat (other : Text) :
    askings name (names ++ [other]) =
      askings name names + if Text.lower other = Text.lower name then 1 else 0 := by
  simp only [askings, List.map_append, List.count_append, List.map_cons, List.map_nil,
    List.count_singleton, beq_iff_eq]

theorem askings_filter {keeps : Text → Bool}
    (kept : ∀ other, Text.lower other = Text.lower name → keeps other = true) :
    askings name (names.filter keeps) = askings name names := by
  induction names with
  | nil => rfl
  | cons other names ih =>
      rw [List.filter_cons]
      split
      · rw [askings_cons, askings_cons, ih]
      · rename_i dropped
        rw [askings_cons, if_neg fun same => dropped (kept other same), Nat.zero_add, ih]

namespace Diagnostics

/-- A report counts every name that it is given. -/
theorem spellingCount_addAllUnresolved (diagnostics : Diagnostics) :
    spellingCount name (diagnostics.addAllUnresolved names).unresolved =
      spellingCount name diagnostics.unresolved + askings name names := by
  induction names generalizing diagnostics with
  | nil => rfl
  | cons other names ih =>
      have later := ih (diagnostics.addUnresolved other)
      rw [addUnresolved, spellingCount_countName] at later
      rw [askings_cons, ← Nat.add_assoc]
      exact later

theorem mem_names_addAllUnresolved (diagnostics : Diagnostics) :
    name ∈ (diagnostics.addAllUnresolved names).unresolved.map (·.1) ↔
      name ∈ diagnostics.unresolved.map (·.1) ∨ name ∈ names := by
  induction names generalizing diagnostics with
  | nil => simp [addAllUnresolved]
  | cons other names ih =>
      have later := ih (diagnostics.addUnresolved other)
      rw [addUnresolved, mem_names_countName, or_assoc] at later
      rw [List.mem_cons]
      exact later

end Diagnostics

end Counting

/-! ### Names that a template asks for -/

namespace Placeholder

/-- The name that a placeholder asks for; a structural one asks for none. -/
def asked? (placeholder : Placeholder) : Option Text :=
  if isStructural placeholder.content then none else some (Modifier.split placeholder.content).2

/-- The names that pieces ask for, once for every occurrence. -/
def askedIn (pieces : List (Piece Placeholder)) : List Text :=
  pieces.filterMap fun
    | .plain _ => none
    | .token placeholder _ => placeholder.asked?

theorem askedIn_token (placeholder : Placeholder) (source : Text) (pieces : List (Piece Placeholder)) :
    askedIn (.token placeholder source :: pieces) = placeholder.asked?.toList ++ askedIn pieces := by
  cases asked : placeholder.asked? <;> simp [askedIn, asked]

variable {context : ContextMap} {placeholder : Placeholder}

theorem read_eq (context : ContextMap) (placeholder : Placeholder) :
    placeholder.read context =
      match placeholder.asked? with
      | none => .structural
      | some name =>
          match context.lookup name with
          | some value => .value (Modifier.applyGiven (Modifier.split placeholder.content).1 value)
          | none => .unknown name := by
  rw [read, asked?]
  split <;> rfl

/-- A placeholder is reported with the name it asks for, if the context lacks that. -/
theorem missing?_token (context : ContextMap) (placeholder : Placeholder) (source : Text) :
    missing? context (.token placeholder source) =
      placeholder.asked?.filter fun name => !context.contains name := by
  rw [missing?, read_eq]
  cases placeholder.asked? with
  | none => rfl
  | some name =>
      rw [Option.filter_some, ContextMap.contains]
      cases isFound : context.lookup name <;> simp [isFound]

theorem unresolved_eq_filter (context : ContextMap) (text : Text) :
    unresolved context text = (askedIn (pieces text)).filter fun name => !context.contains name := by
  rw [unresolved_eq, askedIn, List.filter_filterMap]
  refine List.filterMap_congr fun piece member => ?_
  cases piece with
  | plain c => rfl
  | token placeholder source => rw [missing?_token]

theorem exchanged_of_missing {source : Text} (asked : ∀ name ∈ placeholder.asked?, context.contains name = false) :
    exchanged context (.token placeholder source) = source := by
  rw [exchanged, read_eq]
  cases isAsked : placeholder.asked? with
  | none => rfl
  | some name =>
      have unknown := asked name isAsked
      rw [ContextMap.contains, Option.isSome_eq_false_iff, Option.isNone_iff_eq_none] at unknown
      simp only [unknown]

/-- A text stays as it is if the context lacks every name that it asks for. -/
theorem resolve_of_missing {text : Text}
    (asked : ∀ name ∈ askedIn (pieces text), context.contains name = false) :
    resolve context text = text := by
  have unchanged : ∀ piece ∈ pieces text, exchanged context piece = piece.source := by
    intro piece member
    cases piece with
    | plain c => rfl
    | token placeholder source =>
        exact exchanged_of_missing fun name isAsked =>
          asked name (List.mem_filterMap.mpr ⟨_, member, isAsked⟩)
  rw [resolve_eq_flatten, List.map_congr_left unchanged, ← List.flatMap_def]
  exact Piece.flatMap_source_cut text

end Placeholder

/-! ### The list of placeholders -/

namespace PlaceholderUse

open Placeholder

variable {text name sample : Text} {style : BracketStyle} {modifier : Option Modifier}
  {names : List Text} {uses : List PlaceholderUse}

/-- A use is counted with its other spellings, or it is the first of its name. -/
theorem count_cases (name : Text) (style : BracketStyle) (modifier : Option Modifier) (sample : Text)
    (uses : List PlaceholderUse) :
    (∃ use others, uses.Perm (use :: others) ∧ Text.lower use.name = Text.lower name ∧
      (count name style modifier sample uses).Perm (use.again style modifier :: others)) ∨
    ((∀ use ∈ uses, Text.lower use.name ≠ Text.lower name) ∧
      ∃ first, first.name = name ∧ first.occurrences = 1 ∧
        (count name style modifier sample uses).Perm (first :: uses)) := by
  induction uses with
  | nil => exact .inr ⟨nofun, _, rfl, rfl, .rfl⟩
  | cons use uses ih =>
      rw [count]
      split
      · rename_i same
        exact .inl ⟨use, uses, .rfl, beq_iff_eq.mp same, .rfl⟩
      · rename_i differs
        rcases ih with ⟨other, others, listed, same, counted⟩ | ⟨apart, first, isName, once, counted⟩
        · exact .inl ⟨other, use :: others, (listed.cons use).trans (.swap ..), same,
            (counted.cons use).trans (.swap ..)⟩
        · refine .inr ⟨List.forall_mem_cons.mpr ⟨?_, apart⟩, first, isName, once,
            (counted.cons use).trans (.swap ..)⟩
          simpa [Text.sameLower] using differs

/-- A list of uses for the names that were asked for: each is listed once, with all its spellings
counted together. -/
structure Counts (names : List Text) (uses : List PlaceholderUse) : Prop where
  distinct : (uses.map fun use => Text.lower use.name).Nodup
  occurrences : ∀ use ∈ uses, use.occurrences = askings use.name names
  listed : ∀ name ∈ names, ∃ use ∈ uses, Text.lower use.name = Text.lower name

theorem Counts.perm {others : List PlaceholderUse} (counts : Counts names uses) (perm : uses.Perm others) :
    Counts names others where
  distinct := (perm.map _).nodup_iff.mp counts.distinct
  occurrences use member := counts.occurrences use (perm.mem_iff.mpr member)
  listed name member := by simpa only [perm.mem_iff] using counts.listed name member

/-- Another use under a name that is listed. -/
theorem Counts.again {use : PlaceholderUse} (counts : Counts names (use :: uses))
    (same : Text.lower use.name = Text.lower name) :
    Counts (names ++ [name]) (use.again style modifier :: uses) := by
  have keptName : (use.again style modifier).name = use.name := rfl
  have more : (use.again style modifier).occurrences = use.occurrences + 1 := rfl
  refine ⟨counts.distinct, List.forall_mem_cons.mpr ⟨?_, fun other member => ?_⟩, fun other asked => ?_⟩
  · rw [more, keptName, askings_concat, if_pos same.symm, counts.occurrences use List.mem_cons_self]
  · have differs : Text.lower name ≠ Text.lower other.name := fun isOther =>
      (List.nodup_cons.mp counts.distinct).1
        (List.mem_map.mpr ⟨other, member, (same.trans isOther).symm⟩)
    rw [askings_concat, if_neg differs, Nat.add_zero]
    exact counts.occurrences other (List.mem_cons_of_mem use member)
  · rcases List.mem_append.mp asked with earlier | last
    · obtain ⟨found, member, isName⟩ := counts.listed other earlier
      rcases List.mem_cons.mp member with rfl | later
      · exact ⟨_, List.mem_cons_self, isName⟩
      · exact ⟨found, List.mem_cons_of_mem _ later, isName⟩
    · obtain rfl := List.mem_singleton.mp last
      exact ⟨_, List.mem_cons_self, same⟩

/-- The first use of a name. -/
theorem Counts.first {first : PlaceholderUse} (counts : Counts names uses)
    (apart : ∀ use ∈ uses, Text.lower use.name ≠ Text.lower first.name) (once : first.occurrences = 1) :
    Counts (names ++ [first.name]) (first :: uses) := by
  have unasked : askings first.name names = 0 := by
    refine List.count_eq_zero.mpr fun asked => ?_
    obtain ⟨name, member, same⟩ := List.mem_map.mp asked
    obtain ⟨use, isListed, isName⟩ := counts.listed name member
    exact apart use isListed (isName.trans same)
  refine ⟨List.nodup_cons.mpr ⟨?_, counts.distinct⟩, List.forall_mem_cons.mpr ⟨?_, fun use member => ?_⟩,
    fun name asked => ?_⟩
  · intro member
    obtain ⟨use, isListed, same⟩ := List.mem_map.mp member
    exact apart use isListed same
  · rw [once, askings_concat, if_pos rfl, unasked]
  · rw [askings_concat, if_neg (apart use member).symm, Nat.add_zero]
    exact counts.occurrences use member
  · rcases List.mem_append.mp asked with earlier | last
    · obtain ⟨use, member, isName⟩ := counts.listed name earlier
      exact ⟨use, List.mem_cons_of_mem _ member, isName⟩
    · obtain rfl := List.mem_singleton.mp last
      exact ⟨first, List.mem_cons_self, rfl⟩

theorem Counts.count (counts : Counts names uses) :
    Counts (names ++ [name]) (count name style modifier sample uses) := by
  rcases count_cases name style modifier sample uses with
    ⟨use, others, isListed, same, counted⟩ | ⟨apart, first, rfl, once, counted⟩
  · exact ((counts.perm isListed).again same).perm counted.symm
  · exact (counts.first apart once).perm counted.symm

theorem Counts.add (counts : Counts names uses) (found : Found Placeholder) :
    Counts (names ++ found.token.asked?.toList) (add text uses found) := by
  rw [PlaceholderUse.add, asked?]
  split
  · rw [Option.toList_none, List.append_nil]
    exact counts
  · exact counts.count

/-- The uses in a text are counted for the names that it asks for. -/
theorem Counts.foldl_add (counts : Counts names uses) (start : Nat) (pieces : List (Piece Placeholder)) :
    Counts (names ++ askedIn pieces) ((Found.ofPieces start pieces).foldl (PlaceholderUse.add text) uses) := by
  induction pieces generalizing start names uses with
  | nil => simpa [askedIn, Found.ofPieces] using counts
  | cons piece pieces ih =>
      cases piece with
      | plain c => exact ih counts (start + 1)
      | token placeholder source =>
          have next : Counts (names ++ placeholder.asked?.toList)
              (PlaceholderUse.add text uses ⟨placeholder, start, source⟩) :=
            counts.add ⟨placeholder, start, source⟩
          rw [askedIn_token, ← List.append_assoc]
          exact ih next (start + source.length)

theorem counts_ofText (text : Text) : Counts (askedIn (pieces text)) (ofText text) := by
  have none : Counts [] [] := ⟨List.nodup_nil, nofun, nofun⟩
  exact none.foldl_add 0 (pieces text)

/-- What a list of uses tells of the report of a text, in a context. -/
structure Predicts (context : ContextMap) (uses : List PlaceholderUse) (report : List (Text × Nat)) :
    Prop where
  distinct : (uses.map fun use => Text.lower use.name).Nodup
  known : ∀ use ∈ uses, context.contains use.name = true →
    ∀ entry ∈ report, Text.lower entry.1 ≠ Text.lower use.name
  missing : ∀ use ∈ uses, context.contains use.name = false →
    spellingCount use.name report = use.occurrences
  noOther : ∀ entry ∈ report, ∃ use ∈ uses, Text.lower use.name = Text.lower entry.1

theorem contains_eq_of_lower {context : ContextMap} {other : Text}
    (same : Text.lower name = Text.lower other) : context.contains name = context.contains other := by
  rw [ContextMap.contains, ContextMap.lookup, same, ContextMap.contains, ContextMap.lookup]

/-- **The list of placeholders tells what resolving cannot fill.**  In every context, the report of a
text has the placeholders that the context lacks and no other names, and the spellings of each are
reported as often as the list says that it occurs.  When the context has no placeholder of the list,
the text comes back as it is. -/
theorem predicts_unresolved (context : ContextMap) (correlationId text : Text) :
    Predicts context (ofText text)
        (({ correlationId } : Diagnostics).addAllUnresolved (unresolved context text)).unresolved ∧
      ((∀ use ∈ ofText text, context.contains use.name = false) → resolve context text = text) := by
  have counts := counts_ofText text
  have reported {name : Text} : name ∈
      (({ correlationId } : Diagnostics).addAllUnresolved (unresolved context text)).unresolved.map (·.1) ↔
        name ∈ askedIn (pieces text) ∧ context.contains name = false := by
    rw [Diagnostics.mem_names_addAllUnresolved, unresolved_eq_filter, List.mem_filter]
    simp
  refine ⟨⟨counts.distinct, ?_, ?_, ?_⟩, ?_⟩
  · intro use member isKnown entry isReported same
    obtain ⟨-, unknown⟩ := reported.mp (List.mem_map_of_mem isReported)
    rw [contains_eq_of_lower same, isKnown] at unknown
    cases unknown
  · intro use member unknown
    rw [Diagnostics.spellingCount_addAllUnresolved, counts.occurrences use member, unresolved_eq_filter,
      askings_filter fun other same => by rw [contains_eq_of_lower same, unknown]; rfl]
    exact Nat.zero_add _
  · intro entry isReported
    exact counts.listed entry.1 (reported.mp (List.mem_map_of_mem isReported)).1
  · intro missing
    refine resolve_of_missing fun name asked => ?_
    obtain ⟨use, member, same⟩ := counts.listed name asked
    rw [← contains_eq_of_lower same]
    exact missing use member

end PlaceholderUse

end Covenant
