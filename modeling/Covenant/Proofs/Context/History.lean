import Covenant.Proofs.Context.Layering

/-!
# The history of a context

What a context shows can be read off the changes that were made to it.  The last change to a name,
in any letter case, decides whether the name is listed and with which text; its spelling and its
place are those of the first write since it was last absent.  `History.listed` says this without
reference to a context, and `ContextMap.Follows` says that a context shows what its history lists.
-/

namespace Covenant

/-- A step in the life of a context. -/
inductive Change where
  | write (name text : Text)
  | remove (name : Text)
  | freeze
deriving DecidableEq

namespace Change

/-- Whether a change writes or removes a name, in any letter case. -/
def concerns (name : Text) : Change → Bool
  | write other _ => Text.sameLower other name
  | remove other => Text.sameLower other name
  | freeze => false

def removes (name : Text) : Change → Bool
  | remove other => Text.sameLower other name
  | _ => false

/-- The text that a change leaves its name with. -/
def text? : Change → Option Text
  | write _ text => some text
  | _ => none

end Change

/-- The changes of a context, the first of them first. -/
abbrev History := List Change

namespace History

/-- The text that the last change to a name has left it with. -/
def text? (history : History) (name : Text) : Option Text :=
  (history.reverse.find? (·.concerns name)).bind Change.text?

/-- The name written at a place, if it is absent before that place and not removed after it. -/
def listedAt? (history : History) (place : Nat) : Option Text :=
  match history[place]? with
  | some (.write name _) =>
      if (text? (history.take place) name).isNone && !(history.drop place).any (·.removes name) then
        some name
      else none
  | _ => none

/-- The names that are present at the end, each in the spelling and at the place of its first write
since it was last absent, with the text of its last write. -/
def listed (history : History) : List (Text × Text) :=
  (List.range history.length).filterMap fun place =>
    (history.listedAt? place).bind fun name => (history.text? name).map (name, ·)

variable {history : History} {name other text : Text} {change : Change} {place : Nat}

@[simp] theorem listed_nil : listed [] = [] := rfl

@[simp] theorem text?_nil : text? [] name = none := rfl

theorem text?_concat :
    text? (history ++ [change]) name =
      if change.concerns name then change.text? else text? history name := by
  rw [text?, List.reverse_append, List.reverse_singleton, List.singleton_append, List.find?_cons]
  cases change.concerns name <;> rfl

theorem listedAt?_concat_of_lt (inside : place < history.length) :
    listedAt? (history ++ [change]) place =
      (listedAt? history place).filter fun name => !change.removes name := by
  rw [listedAt?, listedAt?, List.getElem?_append_left inside,
    List.take_append_of_le_length (Nat.le_of_lt inside),
    List.drop_append_of_le_length (Nat.le_of_lt inside)]
  cases history[place]? with
  | none => rfl
  | some own =>
      cases own with
      | write name text =>
          cases absent : (text? (history.take place) name).isNone <;>
            cases removed : (history.drop place).any (·.removes name) <;>
              cases now : change.removes name <;> simp [absent, removed, now, Option.filter]
      | remove name => rfl
      | freeze => rfl

theorem listedAt?_concat_self :
    listedAt? (history ++ [change]) history.length =
      match change with
      | .write name _ => if (text? history name).isNone then some name else none
      | _ => none := by
  rw [listedAt?, List.getElem?_concat_length, List.take_left, List.drop_left]
  cases change with
  | write name text => simp [Change.removes]
  | remove name => rfl
  | freeze => rfl

theorem listedAt?_of_ge (outside : history.length ≤ place) : listedAt? history place = none := by
  rw [listedAt?, List.getElem?_eq_none outside]

theorem text?_isSome_of_listedAt? (isListed : listedAt? history place = some name) :
    (text? history name).isSome := by
  induction history using List.reverseRecOn generalizing place with
  | nil => cases isListed
  | append_singleton history change ih =>
      rw [text?_concat]
      rcases Nat.lt_trichotomy place history.length with inside | rfl | outside
      · rw [listedAt?_concat_of_lt inside, Option.filter_eq_some_iff] at isListed
        obtain ⟨earlier, notRemoved⟩ := isListed
        split
        · rename_i concerned
          cases change with
          | write other text => rfl
          | remove other => simp_all [Change.concerns, Change.removes]
          | freeze => cases concerned
        · exact ih earlier
      · rw [listedAt?_concat_self] at isListed
        cases change with
        | write other text =>
            obtain rfl : other = name := by
              cases absent : (text? history other).isNone <;> simp_all
            simp [Change.concerns, Change.text?, Text.sameLower]
        | remove other => cases isListed
        | freeze => cases isListed
      · rw [listedAt?_of_ge (by simp; omega)] at isListed
        cases isListed

/-- What is left of an item after a change. -/
def updated : Change → Text × Text → Option (Text × Text)
  | .write name text, item => some (item.1, if Text.sameLower item.1 name then text else item.2)
  | .remove name, item => if Text.sameLower item.1 name then none else some item
  | .freeze, item => some item

@[simp] theorem filterMap_updated_freeze (items : List (Text × Text)) :
    items.filterMap (updated .freeze) = items := List.filterMap_some

/-- The item that a change adds to those of a history. -/
def added (history : History) : Change → List (Text × Text)
  | .write name text => if (text? history name).isNone then [(name, text)] else []
  | _ => []

theorem sameLower_comm : Text.sameLower name other = Text.sameLower other name := by
  rw [Text.sameLower, Text.sameLower, Bool.beq_comm]

/-- A write to a listed name changes its text, a removal takes its item away, and a write to an
absent name adds an item at the end. -/
theorem listed_concat :
    listed (history ++ [change]) = (listed history).filterMap (updated change) ++
      added history change := by
  have inside (place : Nat) (member : place ∈ List.range history.length) :
      ((listedAt? (history ++ [change]) place).bind fun name =>
          (text? (history ++ [change]) name).map (name, ·)) =
        (((listedAt? history place).bind fun name =>
          (text? history name).map (name, ·)).bind (updated change)) := by
    rw [listedAt?_concat_of_lt (List.mem_range.mp member)]
    cases isListed : listedAt? history place with
    | none => rfl
    | some name =>
        obtain ⟨text, isText⟩ := Option.isSome_iff_exists.mp (text?_isSome_of_listedAt? isListed)
        cases change with
        | write other new =>
            cases same : Text.sameLower other name <;>
              simp [text?_concat, Change.concerns, Change.removes, Change.text?, updated, isText, same,
                Option.filter, @sameLower_comm name]
        | remove other =>
            cases same : Text.sameLower other name <;>
              simp [text?_concat, Change.concerns, Change.removes, updated, isText, same,
                Option.filter, @sameLower_comm name]
        | freeze => simp [text?_concat, Change.concerns, Change.removes, updated, isText, Option.filter]
  have last : (List.filterMap (fun place => (listedAt? (history ++ [change]) place).bind fun name =>
      (text? (history ++ [change]) name).map (name, ·)) [history.length]) = added history change := by
    rw [List.filterMap_cons, List.filterMap_nil, listedAt?_concat_self]
    cases change with
    | write name text =>
        cases absent : (text? history name).isNone <;>
          simp [added, absent, text?_concat, Change.concerns, Change.text?, Text.sameLower]
    | remove name => rfl
    | freeze => rfl
  rw [listed, List.length_append, List.length_singleton, List.range_succ, List.filterMap_append,
    List.filterMap_congr inside, listed, List.filterMap_filterMap, last]

-- A name that is removed comes back in the spelling and at the place of the next write to it.
example : listed [.write "Naam" "a", .write "plaats" "b", .remove "NAAM", .write "naam" "c",
    .write "Plaats" "d"] = ([("plaats", "d"), ("naam", "c")] : List (Text × Text)) := by decide

/-- A history without the freezing, as a copy has it. -/
def thawed (history : History) : History := history.filter (· ≠ .freeze)

theorem thawed_concat :
    thawed (history ++ [change]) = thawed history ++ if change = .freeze then [] else [change] := by
  rw [thawed, List.filter_append, thawed]
  by_cases isFreeze : change = .freeze <;> simp [isFreeze]

theorem freeze_not_mem_thawed : Change.freeze ∉ thawed history := by
  simp [thawed]

@[simp] theorem text?_thawed : text? (thawed history) name = text? history name := by
  induction history using List.reverseRecOn with
  | nil => rfl
  | append_singleton history change ih =>
      rw [thawed_concat, text?_concat]
      split
      · rename_i isFreeze
        simp [isFreeze, Change.concerns, ih]
      · rw [text?_concat, ih]

@[simp] theorem listed_thawed : listed (thawed history) = listed history := by
  induction history using List.reverseRecOn with
  | nil => rfl
  | append_singleton history change ih =>
      rw [thawed_concat, listed_concat]
      split
      · rename_i isFreeze
        simp [isFreeze, added, ih]
      · rw [listed_concat, ih]
        cases change <;> simp [added]

/-- Nothing but the freezing itself happens after a freezing. -/
def Closes (history : History) : Prop :=
  ∀ before after, history = before ++ .freeze :: after → ∀ change ∈ after, change = .freeze

theorem Closes.concat_freeze (closes : Closes history) : Closes (history ++ [.freeze]) := by
  intro before after whole change member
  rcases List.eq_nil_or_concat' after with rfl | ⟨between, last, rfl⟩
  · cases member
  · have split : history ++ [.freeze] = (before ++ .freeze :: between) ++ [last] := by simpa using whole
    obtain ⟨isBetween, isLast⟩ := List.append_inj' split rfl
    rcases List.mem_append.mp member with inBetween | isChange
    · exact closes before between isBetween change inBetween
    · rw [List.mem_singleton.mp isChange]
      exact (List.singleton_inj.mp isLast).symm

theorem closes_of_not_mem (open_ : Change.freeze ∉ history) : Closes history := by
  rintro before after rfl
  simp at open_

theorem listed_append_freezes {after : History} (freezes : ∀ change ∈ after, change = .freeze) :
    listed (history ++ .freeze :: after) = listed history := by
  have same (count : Nat) : listed (history ++ List.replicate count .freeze) = listed history := by
    induction count with
    | zero => simp
    | succ count ih =>
        rw [List.replicate_succ', ← List.append_assoc, listed_concat, ih]
        simp [added]
  rw [List.eq_replicate_of_mem freezes, ← List.replicate_succ, same]

end History

namespace ContextMap

variable {context : ContextMap} {history : History} {name other text : Text}

theorem sameLower_of_key {entry : Entry} (same : entry.key = Text.lower name) :
    Text.sameLower entry.name name = true := sameLower_iff_key.mpr same

/-- A write changes the text of the item with the name, and adds an item where there is none. -/
theorem items_insert (distinct : context.Distinct) :
    (context.insert name text).items =
      context.items.filterMap (History.updated (.write name text)) ++
        if (context.lookup name).isNone then [(name, text)] else [] := by
  have search (entries : List Entry) (nodup : (entries.map (·.key)).Nodup) :
      (write name text entries).map (fun entry => (entry.name, entry.text)) =
        (entries.map fun entry => (entry.name, entry.text)).filterMap
            (History.updated (.write name text)) ++
          if (entryWithKey? (Text.lower name) entries).isNone then [(name, text)] else [] := by
    induction entries with
    | nil => simp [write, entryWithKey?]
    | cons entry entries ih =>
        obtain ⟨isNew, nodupLater⟩ := List.nodup_cons.mp nodup
        by_cases own : entry.key = Text.lower name
        · have others : (entries.map fun entry => (entry.name, entry.text)).filterMap
              (History.updated (.write name text)) = entries.map fun entry => (entry.name, entry.text) := by
            rw [List.filterMap_map, ← List.filterMap_eq_map]
            refine List.filterMap_congr fun later member => ?_
            have differs : Text.sameLower later.name name = false := by
              rw [← Bool.not_eq_true, sameLower_iff_key, ← own]
              intro same
              exact isNew (List.mem_map.mpr ⟨later, member, same⟩)
            simp [History.updated, differs]
          simp [write, own, entryWithKey?, others, History.updated, sameLower_of_key own]
        · have differs : Text.sameLower entry.name name = false :=
            Bool.eq_false_iff.mpr fun same => own (sameLower_iff_key.mp same)
          simp [write, own, entryWithKey?, ih nodupLater, History.updated, differs]
  have found := search context.entries distinct
  simpa [items, insert, lookup] using found

/-- A removal takes out the item with the name. -/
theorem items_erase :
    (context.erase name).items = context.items.filterMap (History.updated (.remove name)) := by
  rw [items, erase, items, List.filterMap_map]
  induction context.entries with
  | nil => rfl
  | cons entry entries ih =>
      by_cases own : entry.key = Text.lower name
      · simpa [own, History.updated, sameLower_of_key own] using ih
      · have differs : Text.sameLower entry.name name = false :=
          Bool.eq_false_iff.mpr fun same => own (sameLower_iff_key.mp same)
        simpa [own, History.updated, differs] using ih

theorem lookup_erase :
    (context.erase name).lookup other =
      if Text.sameLower name other then none else context.lookup other := by
  rw [lookup_eq_firstText, lookup_eq_firstText, items_erase]
  simp only [Text.sameLower, beq_iff_eq]
  induction context.items with
  | nil => simp
  | cons item items ih =>
      obtain ⟨first, own⟩ := item
      by_cases removed : Text.lower first = Text.lower name
      · have gone : History.updated (.remove name) (first, own) = none := by
          simp [History.updated, Text.sameLower, removed]
        rw [List.filterMap_cons_none gone, ih, firstText_cons, Text.sameLower, removed]
        by_cases same : Text.lower name = Text.lower other <;> simp [same]
      · have kept : History.updated (.remove name) (first, own) = some (first, own) := by
          simp [History.updated, Text.sameLower, removed]
        rw [List.filterMap_cons_some kept, firstText_cons, firstText_cons, ih, Text.sameLower]
        by_cases found : Text.lower first = Text.lower other
        · have differs : Text.lower name ≠ Text.lower other := fun same => removed (found.trans same.symm)
          simp [found, differs]
        · simp [found]

theorem Distinct.erase (distinct : context.Distinct) : (context.erase name).Distinct :=
  (List.filter_sublist.map _).nodup distinct

/-- A context shows what its history lists, and no later change follows a freezing. -/
structure Follows (context : ContextMap) (history : History) : Prop where
  distinct : context.Distinct
  lookup_eq (name : Text) : context.lookup name = history.text? name
  items_eq : context.items = history.listed
  frozen_iff : context.frozen = true ↔ .freeze ∈ history
  closes : history.Closes

namespace Follows

theorem empty : Follows {} [] where
  distinct := .empty
  lookup_eq _ := rfl
  items_eq := rfl
  frozen_iff := by simp
  closes := History.closes_of_not_mem (by simp)

variable (follows : context.Follows history)
include follows

theorem not_mem_of_open (isOpen : context.frozen = false) : Change.freeze ∉ history := by
  rw [← follows.frozen_iff, isOpen]
  exact Bool.false_ne_true

theorem insert (isOpen : context.frozen = false) :
    (context.insert name text).Follows (history ++ [.write name text]) where
  distinct := follows.distinct.insert
  lookup_eq other := by
    rw [lookup_insert, History.text?_concat, follows.lookup_eq]
    rfl
  items_eq := by
    rw [items_insert follows.distinct, History.listed_concat, follows.items_eq, follows.lookup_eq]
    rfl
  frozen_iff := by
    have same : (context.insert name text).frozen = context.frozen := rfl
    rw [same, follows.frozen_iff]
    simp
  closes := History.closes_of_not_mem (by simpa using follows.not_mem_of_open isOpen)

theorem erase (isOpen : context.frozen = false) :
    (context.erase name).Follows (history ++ [.remove name]) where
  distinct := follows.distinct.erase
  lookup_eq other := by
    rw [lookup_erase, History.text?_concat, follows.lookup_eq]
    rfl
  items_eq := by
    rw [items_erase, History.listed_concat, follows.items_eq]
    exact (List.append_nil _).symm
  frozen_iff := by
    have same : (context.erase name).frozen = context.frozen := rfl
    rw [same, follows.frozen_iff]
    simp
  closes := History.closes_of_not_mem (by simpa using follows.not_mem_of_open isOpen)

theorem freeze : context.freeze.Follows (history ++ [.freeze]) where
  distinct := follows.distinct
  lookup_eq name := by
    rw [History.text?_concat]
    exact follows.lookup_eq name
  items_eq := by
    rw [History.listed_concat, History.filterMap_updated_freeze]
    exact follows.items_eq.trans (List.append_nil _).symm
  frozen_iff := by simp [ContextMap.freeze]
  closes := follows.closes.concat_freeze

theorem thaw : context.thaw.Follows history.thawed where
  distinct := follows.distinct
  lookup_eq name := by
    rw [History.text?_thawed]
    exact follows.lookup_eq name
  items_eq := by
    rw [History.listed_thawed]
    exact follows.items_eq
  frozen_iff := by simp [ContextMap.thaw, History.freeze_not_mem_thawed]
  closes := History.closes_of_not_mem History.freeze_not_mem_thawed

end Follows

end ContextMap

end Covenant
