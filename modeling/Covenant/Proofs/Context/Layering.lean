import Covenant.Context.Basic
import Mathlib.Data.List.Basic
import Mathlib.Data.List.Induction

/-!
# Which text a name has

Texts reach a context in layers.  Writes replace the text of a name, additions leave it alone; both
keep the spelling in which the name came first, and aliases are derived from that spelling.  So the
text of a name is the first one that a list of pairs gives to it.
-/

namespace Covenant

/-- The text that the first of the pairs with this name, in any letter case, gives to it. -/
def firstText (pairs : List (Text × Text)) (name : Text) : Option Text :=
  (pairs.find? fun pair => Text.sameLower pair.1 name).map (·.2)

section FirstText

variable {name other text : Text} {pairs more : List (Text × Text)}

@[simp] theorem firstText_nil : firstText [] name = none := rfl

theorem firstText_cons :
    firstText ((other, text) :: pairs) name =
      if Text.sameLower other name then some text else firstText pairs name := by
  rw [firstText, List.find?_cons]
  cases Text.sameLower other name <;> rfl

@[simp] theorem firstText_append :
    firstText (pairs ++ more) name = (firstText pairs name).or (firstText more name) := by
  rw [firstText, List.find?_append, firstText, firstText]
  cases pairs.find? fun pair => Text.sameLower pair.1 name <;> rfl

theorem firstText_isSome (given : ∃ pair ∈ pairs, Text.sameLower pair.1 name) :
    (firstText pairs name).isSome := by
  rw [firstText, Option.isSome_map, List.find?_isSome]
  exact given

theorem exists_of_firstText (found : firstText pairs name = some text) :
    ∃ pair ∈ pairs, Text.sameLower pair.1 name = true ∧ pair.2 = text := by
  rw [firstText, Option.map_eq_some_iff] at found
  obtain ⟨pair, found, rfl⟩ := found
  have same : Text.sameLower pair.1 name = true := by simpa using List.find?_some found
  exact ⟨pair, List.mem_of_find?_eq_some found, same, rfl⟩

/-- Pairs behind one that gives the name a text do not count. -/
theorem firstText_append_of_mem (given : ∃ pair ∈ pairs, Text.sameLower pair.1 name) :
    firstText (pairs ++ more) name = firstText pairs name := by
  rw [firstText_append, Option.or_of_isSome (firstText_isSome given)]

end FirstText

/-- The texts that the values of members are stored as. -/
def storedTexts (members : List (Text × Value)) : List (Text × Text) :=
  members.map fun (name, value) => (name, value.stored)

/-- A name joins others unless they have it, in any letter case. -/
def addSpelling (names : List Text) (name : Text) : List Text :=
  if names.any (Text.sameLower · name) then names else names ++ [name]

/-- Every name in the spelling in which it comes first. -/
def firstSpellings (names : List Text) : List Text := names.foldl addSpelling []

theorem firstSpellings_append (names more : List Text) :
    firstSpellings (names ++ more) = more.foldl addSpelling (firstSpellings names) :=
  List.foldl_append

theorem mem_of_mem_firstSpellings {names : List Text} {name : Text}
    (member : name ∈ firstSpellings names) : name ∈ names := by
  induction names using List.reverseRecOn with
  | nil => exact member
  | append_singleton names last ih =>
      rw [firstSpellings_append] at member
      change name ∈ addSpelling (firstSpellings names) last at member
      rw [addSpelling] at member
      split at member
      · exact List.mem_append_left _ (ih member)
      · rcases List.mem_append.mp member with earlier | isLast
        · exact List.mem_append_left _ (ih earlier)
        · exact List.mem_append_right _ isLast

/-- The aliases of names, each with the text of its name. -/
def aliasTexts (names : List Text) (text? : Text → Option Text) : List (Text × Text) :=
  names.filterMap fun name =>
    (Naming.alias? name).bind fun other => (text? name).map (other, ·)

theorem exists_of_aliasTexts {names : List Text} {text? : Text → Option Text} {pair : Text × Text}
    (member : pair ∈ aliasTexts names text?) : ∃ name, text? name = some pair.2 := by
  obtain ⟨name, -, isAlias⟩ := List.mem_filterMap.mp member
  obtain ⟨other, -, given⟩ := Option.bind_eq_some_iff.mp isAlias
  obtain ⟨text, isText, rfl⟩ := Option.map_eq_some_iff.mp given
  exact ⟨name, isText⟩

namespace ContextMap

variable {context : ContextMap} {name other text : Text} {pairs : List (Text × Text)}

theorem sameLower_iff_key {entry : Entry} :
    Text.sameLower entry.name name = true ↔ entry.key = Text.lower name := by
  rw [Text.sameLower, beq_iff_eq, entry.key_eq]

theorem lookup_eq_firstText : context.lookup name = firstText context.items name := by
  have search (entries : List Entry) : (entryWithKey? (Text.lower name) entries).map (·.text) =
      firstText (entries.map fun entry => (entry.name, entry.text)) name := by
    induction entries with
    | nil => rfl
    | cons entry entries ih =>
        rw [entryWithKey?, List.map_cons, firstText_cons, ← ih]
        simp only [sameLower_iff_key]
        split <;> rfl
  exact search context.entries

/-- Writes to one name after the other. -/
def insertTexts (context : ContextMap) (pairs : List (Text × Text)) : ContextMap :=
  pairs.foldl (fun context (name, text) => context.insert name text) context

/-- Additions of one name after the other. -/
def insertNewTexts (context : ContextMap) (pairs : List (Text × Text)) : ContextMap :=
  pairs.foldl (fun context (name, text) => context.insertNew name text) context

theorem insertAll_eq (members : Members) :
    context.insertAll members = context.insertTexts (storedTexts members) := by
  rw [insertAll, insertTexts, storedTexts, List.foldl_map]

theorem insertNewTexts_append (more : List (Text × Text)) :
    context.insertNewTexts (pairs ++ more) = (context.insertNewTexts pairs).insertNewTexts more :=
  List.foldl_append

/-! ### Texts -/

theorem lookup_insert :
    (context.insert other text).lookup name =
      if Text.sameLower other name then some text else context.lookup name := by
  have search (entries : List Entry) :
      (entryWithKey? (Text.lower name) (write other text entries)).map (·.text) =
        if Text.lower other = Text.lower name then some text
        else (entryWithKey? (Text.lower name) entries).map (·.text) := by
    induction entries with
    | nil =>
        rw [write, entryWithKey?, entryWithKey?]
        split <;> rfl
    | cons entry entries ih =>
        rw [write]
        by_cases own : entry.key = Text.lower other
        · by_cases found : entry.key = Text.lower name
          · simp only [entryWithKey?, if_pos own, if_pos found, if_pos (own.symm.trans found),
              Option.map_some]
          · have differs : Text.lower other ≠ Text.lower name := fun same => found (own.trans same)
            simp only [entryWithKey?, if_pos own, if_neg found, if_neg differs]
        · by_cases found : entry.key = Text.lower name
          · have differs : Text.lower other ≠ Text.lower name := fun same => own (found.trans same.symm)
            simp only [entryWithKey?, if_neg own, if_pos found, if_neg differs]
          · simp only [entryWithKey?, if_neg own, if_neg found, ih]
  simpa [Text.sameLower, lookup, insert] using search context.entries

theorem lookup_insertTexts :
    (context.insertTexts pairs).lookup name =
      (firstText pairs.reverse name).or (context.lookup name) := by
  induction pairs generalizing context with
  | nil => rfl
  | cons pair pairs ih =>
      obtain ⟨other, text⟩ := pair
      have step : (context.insertTexts ((other, text) :: pairs)).lookup name =
          (firstText pairs.reverse name).or ((context.insert other text).lookup name) := ih
      rw [step, lookup_insert, List.reverse_cons, firstText_append, Option.or_assoc, firstText_cons]
      congr 1
      split <;> rfl

theorem lookup_insertNew :
    (context.insertNew other text).lookup name =
      (context.lookup name).or (firstText [(other, text)] name) := by
  rw [insertNew, contains, firstText_cons, firstText_nil]
  by_cases same : Text.sameLower other name
  · have sameLookup : context.lookup other = context.lookup name := by
      rw [lookup, lookup, beq_iff_eq.mp same]
    cases present : context.lookup name with
    | none => simp [sameLookup, present, lookup_insert, same]
    | some old => simp [sameLookup, present]
  · split
    · simp
    · simp [lookup_insert, same]

theorem lookup_insertNewTexts :
    (context.insertNewTexts pairs).lookup name =
      (context.lookup name).or (firstText pairs name) := by
  induction pairs generalizing context with
  | nil => simp [insertNewTexts]
  | cons pair pairs ih =>
      obtain ⟨other, text⟩ := pair
      have step : (context.insertNewTexts ((other, text) :: pairs)).lookup name =
          ((context.insertNew other text).lookup name).or (firstText pairs name) := ih
      rw [step, lookup_insertNew, Option.or_assoc, ← firstText_append, List.singleton_append]

/-! ### Spellings -/

theorem names_insert : (context.insert other text).names = addSpelling context.names other := by
  have search (entries : List Entry) :
      (write other text entries).map (·.name) = addSpelling (entries.map (·.name)) other := by
    induction entries with
    | nil => rfl
    | cons entry entries ih =>
        by_cases own : entry.key = Text.lower other
        · simp [write, own, addSpelling, sameLower_iff_key.mpr own]
        · have differs : Text.sameLower entry.name other = false :=
            Bool.eq_false_iff.mpr fun same => own (sameLower_iff_key.mp same)
          simp only [write, if_neg own, List.map_cons, ih, addSpelling, List.any_cons, differs,
            Bool.false_or]
          split <;> rfl
  exact search context.entries

theorem contains_iff : context.contains name = true ↔ ∃ known ∈ context.names, Text.sameLower known name := by
  rw [contains, lookup_eq_firstText, firstText, Option.isSome_map, List.find?_isSome, items, names]
  simp

theorem names_insertNew : (context.insertNew other text).names = addSpelling context.names other := by
  rw [insertNew]
  split
  · rename_i present
    have known : context.names.any (Text.sameLower · other) = true :=
      List.any_eq_true.mpr (contains_iff.mp present)
    rw [addSpelling, if_pos known]
  · exact names_insert

theorem names_insertTexts :
    (context.insertTexts pairs).names = (pairs.map (·.1)).foldl addSpelling context.names := by
  induction pairs generalizing context with
  | nil => rfl
  | cons pair pairs ih =>
      obtain ⟨other, text⟩ := pair
      have first : (context.insert other text).names = addSpelling context.names other := names_insert
      rw [List.map_cons, List.foldl_cons, ← first]
      exact ih

theorem names_insertNewTexts :
    (context.insertNewTexts pairs).names = (pairs.map (·.1)).foldl addSpelling context.names := by
  induction pairs generalizing context with
  | nil => rfl
  | cons pair pairs ih =>
      obtain ⟨other, text⟩ := pair
      have first : (context.insertNew other text).names = addSpelling context.names other :=
        names_insertNew
      rw [List.map_cons, List.foldl_cons, ← first]
      exact ih

/-! ### Aliases -/

/-- No two entries have the same name, in any letter case. -/
def Distinct (context : ContextMap) : Prop := (context.entries.map (·.key)).Nodup

theorem Distinct.empty : Distinct {} := List.nodup_nil

theorem mem_keys_write {key : Text} {entries : List Entry} :
    key ∈ (write other text entries).map (·.key) ↔
      key ∈ entries.map (·.key) ∨ key = Text.lower other := by
  induction entries with
  | nil => simp [write]
  | cons entry entries ih =>
      by_cases own : entry.key = Text.lower other
      · simp [write, own]
        tauto
      · simp only [write, if_neg own, List.map_cons, List.mem_cons, ih, or_assoc]

theorem Distinct.insert (distinct : Distinct context) : Distinct (context.insert other text) := by
  have search (entries : List Entry) (nodup : (entries.map (·.key)).Nodup) :
      ((write other text entries).map (·.key)).Nodup := by
    induction entries with
    | nil => simp [write]
    | cons entry entries ih =>
        obtain ⟨isNew, nodupLater⟩ := List.nodup_cons.mp nodup
        by_cases own : entry.key = Text.lower other
        · simpa [write, own] using nodup
        · rw [write, if_neg own, List.map_cons, List.nodup_cons, mem_keys_write]
          exact ⟨fun known => known.elim isNew own, ih nodupLater⟩
  exact search context.entries distinct

theorem Distinct.insertNew (distinct : Distinct context) :
    Distinct (context.insertNew other text) := by
  rw [ContextMap.insertNew]
  split
  · exact distinct
  · exact distinct.insert

theorem Distinct.insertTexts (distinct : Distinct context) :
    Distinct (context.insertTexts pairs) := by
  induction pairs generalizing context with
  | nil => exact distinct
  | cons pair pairs ih => exact ih distinct.insert

theorem Distinct.insertNewTexts (distinct : Distinct context) :
    Distinct (context.insertNewTexts pairs) := by
  induction pairs generalizing context with
  | nil => exact distinct
  | cons pair pairs ih => exact ih distinct.insertNew

theorem Distinct.lookup_of_mem (distinct : Distinct context) {entry : Entry}
    (member : entry ∈ context.entries) : context.lookup entry.name = some entry.text := by
  have search (entries : List Entry) (nodup : (entries.map (·.key)).Nodup)
      (member : entry ∈ entries) : entryWithKey? entry.key entries = some entry := by
    induction entries with
    | nil => cases member
    | cons first entries ih =>
        obtain ⟨isNew, nodupLater⟩ := List.nodup_cons.mp nodup
        rw [entryWithKey?]
        rcases List.mem_cons.mp member with rfl | later
        · rw [if_pos rfl]
        · have known : entry.key ∈ entries.map (·.key) := List.mem_map_of_mem later
          have differs : first.key ≠ entry.key := by
            intro same
            rw [← same] at known
            exact isNew known
          rw [if_neg differs, ih nodupLater later]
  rw [lookup, ← entry.key_eq, search context.entries distinct member, Option.map_some]

theorem Distinct.withAliases_eq (distinct : Distinct context) :
    context.withAliases =
      context.insertNewTexts (aliasTexts context.names context.lookup) := by
  have pairs : aliasTexts context.names context.lookup =
      context.entries.filterMap fun entry =>
        (Naming.alias? entry.name).map fun other => (other, entry.text) := by
    rw [aliasTexts, names, List.filterMap_map]
    refine List.filterMap_congr fun entry member => ?_
    rw [Function.comp_apply, distinct.lookup_of_mem member]
    cases Naming.alias? entry.name <;> rfl
  rw [pairs, ContextMap.insertNewTexts, List.foldl_filterMap, ContextMap.withAliases, addAliases]
  congr 1
  funext context entry
  cases Naming.alias? entry.name <;> rfl

end ContextMap

end Covenant
