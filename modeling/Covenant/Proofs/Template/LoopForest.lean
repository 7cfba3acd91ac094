import Covenant.Proofs.Template.Forest
import Covenant.Proofs.Template.LoopBody

/-!
# Loop forests

Expanding a text that was written for a forest of loops evaluates the forest from the inside out.
What is inside an inner loop is evaluated once, before the items of the outer loop are known; the
variables of the outer loop that are left in it are replaced when the outer loop is evaluated.
-/

namespace Covenant.Loop

open Covenant.Loop.Symbol

def writing : Writing (List Symbol) where
  leaf := written
  opening := tagText true
  closing := tagText false

/-- Names of tags that are the same in capitals. -/
def SameName (name other : Text) : Prop :=
  IsName name ∧ IsName other ∧ Text.upper name = Text.upper other

instance (name other : Text) : Decidable (SameName name other) :=
  inferInstanceAs (Decidable (_ ∧ _ ∧ _))

/-- The collection with a name, if there is one, gives its items, and they give their variables,
which are texts without brackets. -/
def Supplies (source : Source) (name : Text) : Prop :=
  ∀ collection, source.registry.find? name = some collection →
    ∃ items, collection.items source.settings source.data source.surroundings = .ok items ∧
      ∀ item ∈ items, ∃ values,
        collection.itemValues source.settings source.data item = .ok values ∧ PlainValues values

/-- What a loop over a collection makes of its body. -/
def repeated (source : Source) (name : Text) (body : List Symbol) : Outcome (List Symbol) :=
  match source.registry.find? name with
  | none => .ok []
  | some collection => do
      let items ← collection.items source.settings source.data source.surroundings
      if items.isEmpty then return []
      else if body.any (hasStem collection.stem) then
        let bodies ← items.mapM fun item => do
          return body.flatMap (filled (← collection.itemValues source.settings source.data item))
        return bodies.flatten
      else return trimmed body

/-- The symbols that are left when a forest is evaluated from the inside out. -/
def evaluate (source : Source) : Forest (List Symbol) → Outcome (List Symbol)
  | .nil => .ok []
  | .leaf symbols rest => do return symbols ++ (← evaluate source rest)
  | .node name inner _ rest => do
      let body ← evaluate source inner
      let symbols ← repeated source name body
      return symbols ++ (← evaluate source rest)

def IsBody (text : Text) : Prop :=
  ∃ body : List Symbol, (∀ symbol ∈ body, symbol.Legible) ∧ text = written body

section Rendering

variable {source : Source} {name : Text} {collection : Collection} {items : List Item}
  {body : List Symbol}

/-- What the items make of a body, in the order of the items. -/
theorem itemTexts_written (legible : ∀ symbol ∈ body, symbol.Legible)
    (each : ∀ item ∈ items, ∃ values,
      collection.itemValues source.settings source.data item = .ok values ∧ PlainValues values) :
    ∃ bodies : List (List Symbol), (∀ symbols ∈ bodies, ∀ symbol ∈ symbols, symbol.Legible) ∧
      (items.mapM fun item => do
        return body.flatMap (filled (← collection.itemValues source.settings source.data item))) =
          .ok bodies ∧
      (items.mapM fun item => do
        renderItem (← collection.itemValues source.settings source.data item) (written body)) =
          .ok (bodies.map written) := by
  choose! valuesOf given plain using each
  refine ⟨items.map fun item => body.flatMap (filled (valuesOf item)), ?_, ?_, ?_⟩
  · intro symbols member symbol inSymbols
    obtain ⟨item, inItems, rfl⟩ := List.mem_map.mp member
    obtain ⟨before, inBody, inFilled⟩ := List.mem_flatMap.mp inSymbols
    exact legible_filled (plain item inItems) (legible before inBody) symbol inFilled
  · apply Outcome.mapM_eq_ok
    intro item inItems
    rw [given item inItems]
    rfl
  · rw [List.map_map]
    apply Outcome.mapM_eq_ok
    intro item inItems
    rw [given item inItems]
    exact renderItem_written legible (plain item inItems)

theorem flatten_written (bodies : List (List Symbol)) :
    (bodies.map written).flatten = written bodies.flatten := by
  induction bodies with
  | nil => rfl
  | cons symbols bodies ih => simp [ih]

theorem render_written (supplies : Supplies source name)
    (legible : ∀ symbol ∈ body, symbol.Legible) :
    ∃ symbols : List Symbol, (∀ symbol ∈ symbols, symbol.Legible) ∧
      repeated source name body = .ok symbols ∧
      render source name (written body) = .ok (written symbols) := by
  cases found : source.registry.find? name with
  | none => exact ⟨[], by simp, by simp [repeated, found], by simp [render, found]⟩
  | some collection =>
      obtain ⟨items, listed, each⟩ := supplies collection found
      simp only [repeated, render, found, listed, Outcome.ok_bind, usesStem_written legible]
      by_cases empty : items.isEmpty = true
      · exact ⟨[], by simp, by rw [if_pos empty]; rfl, by rw [if_pos empty]; rfl⟩
      · by_cases uses : body.any (hasStem collection.stem) = true
        · obtain ⟨bodies, legibleBodies, filledBodies, texts⟩ := itemTexts_written legible each
          refine ⟨bodies.flatten, ?_, ?_, ?_⟩
          · intro symbol member
            obtain ⟨symbols, inBodies, inSymbols⟩ := List.mem_flatten.mp member
            exact legibleBodies symbols inBodies symbol inSymbols
          · rw [if_neg empty, if_pos uses, filledBodies]
            rfl
          · rw [if_neg empty, if_pos uses, texts, Outcome.ok_bind, flatten_written]
            rfl
        · refine ⟨trimmed body, legible_trimmed legible, ?_, ?_⟩
          · rw [if_neg empty, if_neg uses]
            rfl
          · rw [if_neg empty, if_neg uses, trim_written]
            rfl

end Rendering

namespace IsBody

variable {first second : Text}

theorem nil : IsBody [] := ⟨[], by simp, rfl⟩

theorem append (isFirst : IsBody first) (isSecond : IsBody second) : IsBody (first ++ second) := by
  obtain ⟨symbols, legible, rfl⟩ := isFirst
  obtain ⟨others, legibleOthers, rfl⟩ := isSecond
  refine ⟨symbols ++ others, ?_, by simp⟩
  intro symbol member
  rcases List.mem_append.mp member with member | member
  · exact legible symbol member
  · exact legibleOthers symbol member

theorem reads (isBody : IsBody first) : markup.Reads (Part.plains first) := by
  obtain ⟨symbols, legible, rfl⟩ := isBody
  induction symbols with
  | nil => exact .nil
  | cons symbol symbols ih =>
      have later := ih fun other member => legible other (by simp [member])
      have own : markup.Reads (Part.plains symbol.source) := by
        have legibleOwn := legible symbol (by simp)
        cases symbol with
        | char c =>
            apply reads_plain
            rintro rfl
            exact absurd (show isBracket '[' = false from legibleOwn) (by decide)
        | slot name => exact reads_brackets legibleOwn.1
      rw [show written (symbol :: symbols) = symbol.source ++ written symbols from rfl,
        Part.plains_append]
      exact own.append later

end IsBody

/-- The text of a block, if it can be rendered. -/
def blockText (source : Source) (name body : Text) : Text :=
  match render source name body with
  | .ok text => text
  | .error _ => []

/-- A legible tag; an opening one names a collection that supplies its items. -/
def IsSupplied (source : Source) (tag : Tag) : Prop :=
  markup.Reads [.tagged tag] ∧ (tag.isOpen = true → Supplies source tag.argument)

theorem leafLanguage (source : Source) :
    LeafLanguage markup (render source) (blockText source) IsBody (IsSupplied source) where
  nil := IsBody.nil
  append := IsBody.append
  reads := IsBody.reads
  readsTag isTag := isTag.1
  renders := by
    rintro opening _ isTag isOpen ⟨body, legible, rfl⟩
    obtain ⟨symbols, -, -, rendered⟩ := render_written (isTag.2 isOpen) legible
    simp only [blockText, rendered]
    rfl
  closed := by
    rintro opening _ isTag isOpen ⟨body, legible, rfl⟩
    obtain ⟨symbols, legibleSymbols, -, rendered⟩ := render_written (isTag.2 isOpen) legible
    exact ⟨symbols, legibleSymbols, by simp only [blockText, rendered]⟩

/-- Names that are the same, of a collection that supplies its items. -/
def Fits (source : Source) (name other : Text) : Prop :=
  SameName name other ∧ Supplies source name

section Forests

variable {source : Source} {forest : Forest (List Symbol)}

theorem speaks_nest_of_wellFormed
    (wellFormed : forest.WellFormed (fun symbols => ∀ symbol ∈ symbols, symbol.Legible)
      (Fits source)) :
    (forest.nest markup writing).Speaks IsBody (IsSupplied source) := by
  apply Forest.speaks_nest markup writing (fun symbols legible => ⟨symbols, legible, rfl⟩) _
    wellFormed
  rintro name other ⟨⟨isName, isOther, sameName⟩, supplies⟩
  refine ⟨⟨reads_tagOf isName true, fun _ => ?_⟩, ⟨reads_tagOf isOther false, nofun⟩, ?_⟩
  · simpa only [BlockMarkup.tagOf, isName.trim_eq] using supplies
  · simp only [BlockMarkup.tagOf, markup, isName.trim_eq, isOther.trim_eq, sameName]

theorem settled_eq_written
    (wellFormed : forest.WellFormed (fun symbols => ∀ symbol ∈ symbols, symbol.Legible)
      (Fits source)) {limit : Nat} (enough : forest.height ≤ limit) :
    ∃ symbols, evaluate source forest = .ok symbols ∧ (∀ symbol ∈ symbols, symbol.Legible) ∧
      forest.settled writing (blockText source) limit = written symbols := by
  induction forest with
  | nil => exact ⟨[], rfl, by simp, rfl⟩
  | leaf content rest ih =>
      obtain ⟨symbols, evaluated, legible, settled⟩ := ih wellFormed.2 enough
      refine ⟨content ++ symbols, ?_, ?_, ?_⟩
      · rw [evaluate, evaluated]
        rfl
      · intro symbol member
        rcases List.mem_append.mp member with member | member
        · exact wellFormed.1 symbol member
        · exact legible symbol member
      · rw [Forest.settled, settled, written_append]
        rfl
  | node name inner other rest innerIH restIH =>
      obtain ⟨⟨-, supplies⟩, wellFormedInner, wellFormedRest⟩ := wellFormed
      obtain ⟨innerEnough, restEnough⟩ : inner.height + 1 ≤ limit ∧ rest.height ≤ limit :=
        Nat.max_le.mp enough
      obtain ⟨body, evaluatedBody, legibleBody, settledBody⟩ :=
        innerIH wellFormedInner (by omega)
      obtain ⟨after, evaluatedAfter, legibleAfter, settledAfter⟩ := restIH wellFormedRest restEnough
      obtain ⟨symbols, legible, repeats, rendered⟩ := render_written supplies legibleBody
      refine ⟨symbols ++ after, ?_, ?_, ?_⟩
      · rw [evaluate, evaluatedBody, Outcome.ok_bind, repeats, Outcome.ok_bind, evaluatedAfter]
        rfl
      · intro symbol member
        rcases List.mem_append.mp member with member | member
        · exact legible symbol member
        · exact legibleAfter symbol member
      · simp only [Forest.settled, innerEnough, if_true, settledBody, settledAfter, blockText,
          rendered, written_append]

theorem mayHoldTags_text (hasNode : forest.height ≠ 0) :
    mayHoldTags (forest.text writing) = true := by
  obtain ⟨before, name, after, written⟩ := forest.exists_opening_in_text writing hasNode
  rw [written]
  exact mayHoldTags_append before _

end Forests

/-- Two cars, stored around the case; the second has no number of doors. -/
def carSource : Source where
  settings := {}
  registry := .ofList [Registry.recordCollection "AUTOS" "AUTO_" [] [] []]
  data := { today := { year := 2024, month := 5, day := 1 } }
  surroundings := [("autos", .list [
    .object [("merk", .text "opel"), ("deuren", .int 4)], .object [("merk", .text "saab")]])]

/-- A loop over the cars inside another one, with an unknown collection in it. -/
def carForest : Forest (List Symbol) :=
  .node "AUTOS"
    (.leaf (.slot "caps: auto_merk" :: chars " of ") <|
      .node "autos"
        (.leaf [.slot "AUTO_MERK"] <|
          .node "BOTEN" (.leaf (chars "boot") .nil) "boten" <|
          .leaf (chars "/") .nil)
        "AUTOS" <|
      .leaf [.slot "AUTO_DEUREN", .char ';'] .nil)
    "Autos" .nil

theorem carSource_supplies {name : Text} (capitals : Text.upper (Text.trim name) = "AUTOS") :
    Supplies carSource name := by
  intro collection found
  rw [Registry.find?, capitals] at found
  have isCars : some (Registry.recordCollection "AUTOS" "AUTO_" [] [] []) = some collection :=
    found
  cases isCars
  refine ⟨[.record [("merk", .text "opel"), ("deuren", .int 4)],
    .record [("merk", .text "saab")]], rfl, ?_⟩
  intro item member
  have plain (name content : Text) (values : Members) (free : BracketFree content)
      (others : PlainValues values) : PlainValues ((name, .text content) :: values) := by
    intro pair member
    rcases List.mem_cons.mp member with rfl | member
    · exact ⟨content, rfl, free⟩
    · exact others pair member
  simp only [List.mem_cons, List.not_mem_nil, or_false] at member
  rcases member with rfl | rfl
  · exact ⟨[("AUTO_MERK", .text "opel"), ("AUTO_DEUREN", .text "4")], rfl,
      plain _ _ _ (by decide) (plain _ _ _ (by decide) nofun)⟩
  · exact ⟨[("AUTO_MERK", .text "saab")], rfl, plain _ _ _ (by decide) nofun⟩

theorem carForest_wellFormed :
    carForest.WellFormed (fun symbols => ∀ symbol ∈ symbols, symbol.Legible) (Fits carSource) := by
  have unknown : Supplies carSource "BOTEN" := by
    intro collection found
    exact absurd (show none = some collection from found) (by simp)
  refine ⟨⟨by decide, carSource_supplies (by decide)⟩, ⟨by decide, ⟨by decide, ?_⟩, ?_⟩, trivial⟩
  · exact carSource_supplies (by decide)
  · exact ⟨⟨by decide, ⟨by decide, unknown⟩, ⟨by decide, trivial⟩, by decide, trivial⟩,
      by decide, trivial⟩

end Covenant.Loop
