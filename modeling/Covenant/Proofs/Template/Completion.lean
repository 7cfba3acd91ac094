import Covenant.Proofs.Collection.Written
import Covenant.Resolver

/-!
# Templates that can be resolved

Whatever a template looks like, it can be resolved when the items of every collection can be written.
The passes themselves never fail: tags that do not pair, unknown names and unknown collections are
no faults.
-/

namespace Covenant

/-- The items of a collection can be listed and written. -/
def Collection.IsWritable (settings : Settings) (data : CaseData) (surroundings : Members)
    (collection : Collection) : Prop :=
  ∃ items, collection.items settings data surroundings = .ok items ∧
    ∀ item ∈ items, collection.CanWrite item

/-! ### Blocks -/

section Blocks

variable {render : Text → Text → Outcome Text}

theorem returns_replaceBlocksFrom {text : Text} {rendered : Block → Outcome Text}
    (renders : ∀ block, Outcome.Returns (rendered block)) (cursor : Nat) (blocks : List Block) :
    Outcome.Returns (replaceBlocksFrom text rendered cursor blocks) := by
  induction blocks generalizing cursor with
  | nil => exact Outcome.returns_ok _
  | cons block blocks ih =>
      exact (renders block).bind fun _ _ => (ih block.stop).bind fun _ _ => Outcome.returns_ok _

/-- Blocks can be reduced when all of them can be rendered. -/
theorem BlockMarkup.returns_reduce (markup : BlockMarkup)
    (renders : ∀ argument inner, Outcome.Returns (render argument inner)) (passes : Nat)
    (problems : List Text) (text : Text) :
    Outcome.Returns (markup.reduce render passes problems text) := by
  induction passes generalizing problems text with
  | zero =>
      rw [BlockMarkup.reduce]
      split
      · exact Outcome.returns_ok _
      · exact Outcome.returns_ok _
  | succ passes ih =>
      rw [BlockMarkup.reduce]
      split
      · exact Outcome.returns_ok _
      · exact (returns_replaceBlocksFrom (fun block => renders _ _) 0 _).bind fun text _ => ih _ text

end Blocks

/-! ### Loops -/

namespace Loop

theorem exists_pieceValue {values : Members} (texts : ∀ value ∈ values, value.2.IsText)
    (piece : Piece Text) : ∃ content, pieceValue values piece = .ok (.text content) := by
  cases piece with
  | plain c => exact ⟨[c], rfl⟩
  | token content source =>
      rcases split : Modifier.split content with ⟨modifier, name⟩
      simp only [pieceValue, split]
      cases found : valueOf? values name with
      | none => exact ⟨source, rfl⟩
      | some value =>
          obtain ⟨pair, isPair, rfl⟩ := Option.map_eq_some_iff.mp found
          obtain ⟨own, isText⟩ := texts pair (List.mem_reverse.mp (List.mem_of_find?_eq_some isPair))
          rw [isText]
          cases modifier with
          | none => exact ⟨own, rfl⟩
          | some modifier => exact ⟨modifier.apply own, rfl⟩

/-- A body can be rendered with variables that are texts. -/
theorem returns_renderItem {values : Members} (texts : ∀ value ∈ values, value.2.IsText) (body : Text) :
    Outcome.Returns (renderItem values body) := by
  have each : ∀ piece ∈ pieces body, Outcome.Returns (pieceValue values piece) := by
    intro piece _
    obtain ⟨content, own⟩ := exists_pieceValue texts piece
    exact ⟨_, own⟩
  refine (Outcome.returns_mapM_iff.mpr each).bind fun written areWritten => ?_
  refine (Outcome.returns_mapM_iff.mpr fun value member => ?_).bind fun _ _ => Outcome.returns_ok _
  obtain ⟨piece, -, own⟩ := Outcome.exists_of_mem_mapM areWritten member
  obtain ⟨content, isText⟩ := exists_pieceValue texts piece
  obtain rfl := Except.ok.inj (own.symm.trans isText)
  exact Outcome.returns_ok content

variable {source : Source}

/-- Every item can be rendered exactly when all of them can be written. -/
theorem returns_renderedItems_iff (texts : source.data.HasPersonTexts) {collection : Collection}
    {items : List Item}
    (listed : collection.items source.settings source.data source.surroundings = .ok items) (body : Text) :
    Outcome.Returns (items.mapM (renderFor source collection body)) ↔
      ∀ item ∈ items, collection.CanWrite item := by
  rw [Outcome.returns_mapM_iff]
  refine forall₂_congr fun item member => ?_
  have itemTexts := Collection.hasTexts_of_listed texts listed member
  rw [← Collection.returns_itemValues_iff texts itemTexts]
  exact ⟨Outcome.Returns.of_bind, fun values => values.bind fun _ written =>
    returns_renderItem (Collection.areTexts_itemValues itemTexts written) body⟩

/-- A block can be rendered when the items of every collection can be written. -/
theorem returns_render (texts : source.data.HasPersonTexts)
    (writable : ∀ collection ∈ source.registry.toList,
      collection.IsWritable source.settings source.data source.surroundings) (name body : Text) :
    Outcome.Returns (render source name body) := by
  rw [render]
  cases found : source.registry.find? name with
  | none => exact Outcome.returns_ok []
  | some collection =>
      obtain ⟨items, listed, canWrite⟩ := writable collection (Registry.mem_of_find? found)
      simp only [listed, Outcome.ok_bind]
      split_ifs
      · exact Outcome.returns_ok _
      · exact ((returns_renderedItems_iff texts listed body).mpr canWrite).bind fun _ _ =>
          Outcome.returns_ok _
      · exact Outcome.returns_ok _

/-- A block that uses variables of the items can be rendered only then. -/
theorem isWritable_of_returns_render (texts : source.data.HasPersonTexts) {name : Text}
    {collection : Collection} (found : source.registry.find? name = some collection) {body : Text}
    (uses : usesStem collection.stem body = true) (returns : Outcome.Returns (render source name body)) :
    collection.IsWritable source.settings source.data source.surroundings := by
  simp only [render, found, uses, if_true] at returns
  obtain ⟨items, listed, rendered⟩ := Outcome.returns_bind_iff.mp returns
  refine ⟨items, listed, ?_⟩
  cases items with
  | nil => exact fun item member => absurd member List.not_mem_nil
  | cons item items =>
      rw [List.isEmpty_cons, if_neg Bool.false_ne_true] at rendered
      exact (returns_renderedItems_iff texts listed body).mp rendered.of_bind

theorem returns_expand (texts : source.data.HasPersonTexts)
    (writable : ∀ collection ∈ source.registry.toList,
      collection.IsWritable source.settings source.data source.surroundings) (passes : Int)
    (text : Text) : Outcome.Returns (expand source passes text) := by
  rw [expand]
  split
  · exact (markup.returns_reduce (returns_render texts writable) _ _ text).bind fun _ _ =>
      Outcome.returns_ok _
  · exact Outcome.returns_ok _

/-- A template with one block, which uses a variable of the items of a collection. -/
def probe (collection : Collection) : Text :=
  "[[#" ++ collection.name ++ "]][[" ++ collection.stem ++ "]][[/" ++ collection.name ++ "]]"

/-- The usual collections have names and stems that tags may hold. -/
theorem scan_probe : ∀ collection ∈ Registry.usual.toList,
    mayHoldTags (probe collection) = true ∧
    usesStem collection.stem ("[[" ++ collection.stem ++ "]]") = true ∧
    (markup.scan (probe collection)).blocks.map (fun block =>
      (block.opening.argument, block.inner (probe collection))) =
        [(collection.name, "[[" ++ collection.stem ++ "]]")] := by
  decide +kernel

/-- The probe of a usual collection can be expanded only if its items can be written. -/
theorem isWritable_of_returns_expand (texts : source.data.HasPersonTexts)
    (isUsual : source.registry = .usual) {collection : Collection}
    (member : collection ∈ Registry.usual.toList) {passes : Int} (positive : 0 < passes)
    (returns : Outcome.Returns (expand source passes (probe collection))) :
    collection.IsWritable source.settings source.data source.surroundings := by
  obtain ⟨holdsTags, uses, blocks⟩ := scan_probe collection member
  have found : source.registry.find? collection.name = some collection :=
    isUsual ▸ Registry.find?_usual member
  obtain ⟨passes', count⟩ : ∃ passes', passes.toNat = passes' + 1 :=
    ⟨passes.toNat - 1, by omega⟩
  obtain ⟨block, scanned, own⟩ := List.map_eq_singleton_iff.mp blocks
  obtain ⟨named, inside⟩ := Prod.mk.inj own
  rw [expand, if_pos holdsTags, count, BlockMarkup.reduce, scanned, replaceBlocks, replaceBlocksFrom] at returns
  simp only [List.isEmpty_cons, Bool.false_eq_true, if_false, named, inside] at returns
  exact isWritable_of_returns_render texts found uses returns.of_bind.of_bind.of_bind

end Loop

namespace Resolver

/-- In a context in which the items of every collection can be written, every template can be
resolved. -/
theorem returns_run {resolver : Resolver} {data : CaseData} (texts : data.HasPersonTexts)
    {context : ContextMap} (writable : ∀ collection ∈ resolver.registry.toList,
      collection.IsWritable resolver.settings data context.toMembers) (text : Text) :
    Outcome.Returns (resolver.run data context text) :=
  (Loop.returns_expand texts writable _ text).bind fun _ _ => Outcome.returns_ok _

/-- With the usual collections this is needed. -/
theorem isWritable_of_returns_run {data : CaseData} (texts : data.HasPersonTexts) {context : ContextMap}
    (returns : ∀ text, Outcome.Returns (({} : Resolver).run data context text))
    {collection : Collection} (member : collection ∈ Registry.usual.toList) :
    collection.IsWritable {} data context.toMembers :=
  Loop.isWritable_of_returns_expand texts rfl member (by decide)
    (returns (Loop.probe collection)).of_bind

end Resolver

end Covenant
