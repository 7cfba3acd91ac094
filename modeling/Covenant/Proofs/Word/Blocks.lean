import Covenant.Proofs.Collection.Lookup
import Covenant.Proofs.Template.Standing
import Covenant.Proofs.Template.TokenPasses
import Covenant.Proofs.Word.Passes

/-!
# Blocks around markers

A block is exchanged for its trimmed content, so a marker that is first or last in it comes to stand
next to what is beside the block on its line.  When there is nothing but white space, as in a template
whose tags have lines of their own, markers stay alone on their lines.  Then a table is lost only with
a block that is exchanged for nothing.
-/

namespace Covenant.Word

open Text (firstLine lastLine isAllBlank)

variable {count : Nat}

/-! ### One block -/

/-- The tags of a block hold no marker, and where what it is exchanged for begins or ends with a
marker, nothing stands in front of the block or behind it on that line. -/
structure SparesTables (stage : Text) (block : Block) (result : Text) : Prop where
  opening : markerEdge ∉ block.opening.source
  closing : markerEdge ∉ block.closing.source
  front : result.head? = some markerEdge → isAllBlank (lastLine (stage.take block.start)) = true
  behind : result.getLast? = some markerEdge → isAllBlank (firstLine (stage.drop block.stop)) = true

instance (stage : Text) (block : Block) (result : Text) : Decidable (SparesTables stage block result) :=
  decidable_of_iff
    (markerEdge ∉ block.opening.source ∧ markerEdge ∉ block.closing.source ∧
      (result.head? = some markerEdge → isAllBlank (lastLine (stage.take block.start)) = true) ∧
      (result.getLast? = some markerEdge → isAllBlank (firstLine (stage.drop block.stop)) = true))
    ⟨fun ⟨opening, closing, front, behind⟩ => ⟨opening, closing, front, behind⟩,
      fun ⟨opening, closing, front, behind⟩ => ⟨opening, closing, front, behind⟩⟩

/-- What stands in for the content of a block: nothing, or a text that has its tables and, if there is
a marker on the first or last line, begins or ends with it. -/
structure Carries (count : Nat) (inner result : Text) : Prop where
  alone : MarkersAlone count result
  first : markerEdge ∈ firstLine result → result.head? = some markerEdge
  last : markerEdge ∈ lastLine result → result.getLast? = some markerEdge
  tables : result = [] ∨ tablesIn count inner ⊆ tablesIn count result

namespace Carries

variable {inner : Text}

theorem nil : Carries count inner [] :=
  ⟨markersAlone_of_free List.not_mem_nil, nofun, nofun, .inl rfl⟩

theorem trim (embeds : Embeds count inner) : Carries count inner (Text.trim inner) where
  alone := markersAlone_trim_iff.1.mp embeds.alone
  first := head?_trim_of_marker (markersAlone_trim_iff.1.mp embeds.alone)
  last := getLast?_trim_of_marker (markersAlone_trim_iff.1.mp embeds.alone)
  tables := .inr (markersAlone_trim_iff.2 ▸ List.Subset.refl _)

/-- Copies of the content, each with its own variables inserted. -/
theorem flatten {texts : List Text}
    (each : ∀ text ∈ texts, Embeds count text ∧ tablesIn count text = tablesIn count inner) :
    Embeds count texts.flatten ∧ Carries count inner texts.flatten := by
  have embeds : Embeds count texts.flatten ∧
      (texts = [] ∨ tablesIn count inner ⊆ tablesIn count texts.flatten) := by
    induction texts with
    | nil => exact ⟨.of_free List.not_mem_nil, .inl rfl⟩
    | cons text texts ih =>
        obtain ⟨⟨own, same⟩, later⟩ := List.forall_mem_cons.mp each
        obtain ⟨embedsLater, -⟩ := ih later
        refine ⟨own.append embedsLater, .inr ?_⟩
        rw [List.flatten_cons, (own.apart embedsLater).tablesIn_append, same]
        exact List.subset_append_left _ _
  obtain ⟨embedded, tables⟩ := embeds
  refine ⟨embedded, embedded.alone, fun member => absurd member embedded.first,
    fun member => absurd member embedded.last, tables.imp_left fun none => ?_⟩
  rw [none, List.flatten_nil]

end Carries

/-- Rendering a block leaves its tables or nothing. -/
def RendersTables (count : Nat) (render : Text → Text → Outcome Text) : Prop :=
  ∀ argument inner result, render argument inner = .ok result → Embeds count inner →
    Carries count inner result

theorem IsEnclosed.around {opening closing : Text} (opens : IsEnclosed opening)
    (closes : IsEnclosed closing) (inner : Text) : IsEnclosed (opening ++ (inner ++ closing)) := by
  obtain ⟨first, left, middle, rfl, opensFirst, -⟩ := opens
  obtain ⟨between, right, last, rfl, -, closesLast⟩ := closes
  exact ⟨first, left ++ middle :: (inner ++ between :: right), last, by simp, opensFirst, closesLast⟩

/-- Between two tokens a text is embedded. -/
theorem MarkersAlone.inside {opening inner closing : Text}
    (alone : MarkersAlone count (opening ++ (inner ++ closing))) (opens : IsEnclosed opening)
    (closes : IsEnclosed closing) (freeOpening : markerEdge ∉ opening)
    (freeClosing : markerEdge ∉ closing) :
    Embeds count inner ∧ tablesIn count (opening ++ (inner ++ closing)) = tablesIn count inner := by
  obtain ⟨-, -, ⟨aloneRest, first⟩, tables⟩ :=
    @MarkersAlone.divide count [] (inner ++ closing) opening alone opens
  obtain ⟨⟨aloneInner, last⟩, -, -, tablesRest⟩ :=
    @MarkersAlone.divide count inner [] closing (by simpa using aloneRest) closes
  have none := @tablesIn_of_free count [] List.not_mem_nil
  rw [List.append_nil] at tablesRest
  rw [List.nil_append, none, tablesIn_of_free freeOpening, tablesRest, tablesIn_of_free freeClosing,
    none] at tables
  refine ⟨⟨aloneInner, fun member => first (Text.mem_firstLine_append_of_left member), last⟩, ?_⟩
  simpa using tables

/-- A block is exchanged for text that carries its tables. -/
theorem MarkersAlone.exchange_block {first opening inner closing result second : Text}
    (alone : MarkersAlone count (first ++ ((opening ++ (inner ++ closing)) ++ second)))
    (opens : IsEnclosed opening) (closes : IsEnclosed closing) (freeOpening : markerEdge ∉ opening)
    (freeClosing : markerEdge ∉ closing) (carries : Embeds count inner → Carries count inner result)
    (front : result.head? = some markerEdge → isAllBlank (lastLine first) = true)
    (behind : result.getLast? = some markerEdge → isAllBlank (firstLine second) = true) :
    MarkersAlone count (first ++ (result ++ second)) ∧
      ∀ table ∈ tablesIn count (first ++ ((opening ++ (inner ++ closing)) ++ second)),
        table ∈ tablesIn count (first ++ (result ++ second)) ∨
          (result = [] ∧ table ∈ tablesIn count inner) := by
  have isToken := opens.around closes inner
  obtain ⟨-, embedsToken, -, tables⟩ := alone.divide isToken
  obtain ⟨embeds, sameTables⟩ := embedsToken.alone.inside opens closes freeOpening freeClosing
  obtain ⟨aloneResult, atFirst, atLast, carried⟩ := carries embeds
  obtain ⟨aloneNew, newTables⟩ := alone.exchange isToken aloneResult
    (fun member => front (atFirst member)) (fun member => behind (atLast member))
  refine ⟨aloneNew, fun table member => ?_⟩
  rw [tables, sameTables] at member
  rw [newTables]
  simp only [List.mem_append] at member ⊢
  rcases member with inFront | inside | isBehind
  · exact .inl (.inl inFront)
  · exact carried.elim (fun none => .inr ⟨none, inside⟩) fun kept => .inl (.inr (.inl (kept inside)))
  · exact .inl (.inr (.inr isBehind))

/-! ### One pass -/

section Pass

variable {render : Text → Text → Outcome Text} {text : Text}

/-- A tag that stands in a text, between delimiters. -/
def IsToken (text : Text) (tag : Tag) : Prop := tag.StandsIn text ∧ IsEnclosed tag.source

theorem IsEnclosed.isAllBlank_lastLine {token : Text} (enclosed : IsEnclosed token) (front : Text) :
    isAllBlank (lastLine (front ++ token)) = false := by
  obtain ⟨opening, inner, closing, rfl, -, closes⟩ := enclosed
  rw [← List.cons_append, ← List.append_assoc, Text.lastLine_concat _ (ne_break_of_isDelimiter closes)]
  simp [isAllBlank, isBlank_of_isDelimiter closes]

/-- White space between a place and the last block makes no difference to what a line begins with. -/
theorem isAllBlank_lastLine_append {front other gap : Text}
    (quiet : isAllBlank (lastLine front) = true → isAllBlank (lastLine other) = true)
    (allBlank : isAllBlank (lastLine (front ++ gap)) = true) :
    isAllBlank (lastLine (other ++ gap)) = true := by
  rw [Text.lastLine_append] at allBlank ⊢
  split at allBlank
  · rename_i isBreak
    rwa [if_pos isBreak]
  · rename_i noBreak
    rw [if_neg noBreak]
    simp only [isAllBlank, List.all_append, Bool.and_eq_true] at allBlank quiet ⊢
    exact ⟨quiet allBlank.1, allBlank.2⟩

/-- One pass.  `front` is what has been made of the text up to the place `cursor`; a line begins with
white space there if it does in the text. -/
theorem keeps_replaceBlocksFrom (renders : RendersTables count render) {cursor : Nat}
    {blocks : List Block} (row : InRow (IsToken text) cursor blocks)
    (spares : ∀ block ∈ blocks, ∀ result,
      render block.opening.argument (block.inner text) = .ok result → SparesTables text block result)
    (front : Text) {tail : Text} (alone : MarkersAlone count (front ++ text.drop cursor))
    (quiet : isAllBlank (lastLine (text.take cursor)) = true → isAllBlank (lastLine front) = true)
    (replaced : replaceBlocksFrom text
      (fun block => render block.opening.argument (block.inner text)) cursor blocks = .ok tail) :
    MarkersAlone count (front ++ tail) ∧
      ∀ table ∈ tablesIn count (front ++ text.drop cursor), table ∈ tablesIn count (front ++ tail) ∨
        ∃ block ∈ blocks, render block.opening.argument (block.inner text) = .ok [] ∧
          table ∈ tablesIn count (block.inner text) := by
  induction row generalizing front tail with
  | nil =>
      obtain rfl := Except.ok.inj replaced
      exact ⟨alone, fun table member => .inl member⟩
  | @cons cursor block blocks reached opens closes inOrder later ih =>
      obtain ⟨result, rendered, replaced⟩ := Outcome.bind_eq_ok_iff.mp replaced
      obtain ⟨rest, replacedLater, same⟩ := Outcome.bind_eq_ok_iff.mp replaced
      obtain rfl := Except.ok.inj same
      obtain ⟨own, sparesLater⟩ := List.forall_mem_cons.mp spares
      obtain ⟨freeOpening, freeClosing, clearInFront, clearBehind⟩ := own result rendered
      obtain ⟨fromBlock, upToStop⟩ := Block.take_and_drop opens.1 closes.1 inOrder
      have atBlock : front ++ text.drop cursor =
          (front ++ Text.slice cursor block.start text) ++ (block.source text ++ text.drop block.stop) := by
        rw [Text.drop_eq_slice_append reached, fromBlock, List.append_assoc]
      rw [Text.take_eq_append_slice reached] at clearInFront
      rw [atBlock] at alone ⊢
      obtain ⟨aloneNew, kept⟩ := alone.exchange_block opens.2 closes.2 freeOpening freeClosing
        (renders _ _ _ rendered)
        (fun begins => isAllBlank_lastLine_append quiet (clearInFront begins)) clearBehind
      rw [← List.append_assoc] at aloneNew kept
      obtain ⟨aloneTail, keptLater⟩ := ih sparesLater _ aloneNew
        (fun allBlank => by
          rw [upToStop, Block.source, (opens.2.around closes.2 _).isAllBlank_lastLine] at allBlank
          cases allBlank)
        replacedLater
      simp only [Block.source, List.append_assoc] at aloneTail keptLater kept ⊢
      refine ⟨aloneTail, fun table member => ?_⟩
      rcases kept table member with stays | ⟨rfl, lost⟩
      · rcases keptLater table stays with stays | ⟨other, isLater, found⟩
        · exact .inl stays
        · exact .inr ⟨other, List.mem_cons_of_mem block isLater, found⟩
      · exact .inr ⟨block, List.mem_cons_self, rendered, lost⟩

theorem IsToken.of_mem_tags {markup : BlockMarkup} (enclosed : ∀ place rest form length,
      markup.recognise place rest = some (form, length) → IsEnclosed (rest.take length))
    {tag : Tag} (member : tag ∈ markup.tags text) : IsToken text tag := by
  obtain ⟨form, place, rest, length, recognised, isSource⟩ :=
    BlockMarkup.exists_recognised_of_mem_tags member
  exact ⟨(markup.standsIn_tags text).2 tag member, isSource ▸ enclosed place rest form length recognised⟩

/-- **Reducing blocks keeps the markers.**  While no exchange brings a marker next to other text, all of
them stay alone on their lines, and a table is lost only with a block that is exchanged for nothing. -/
theorem keeps_reduce {markup : BlockMarkup} (enclosed : ∀ place rest form length,
      markup.recognise place rest = some (form, length) → IsEnclosed (rest.take length))
    (renders : RendersTables count render) {passes : Nat} {problems : List Text} {reduced : Reduced}
    (spares : ∀ stage block result, markup.Meets render passes text stage block result →
      SparesTables stage block result)
    (alone : MarkersAlone count text)
    (reduces : markup.reduce render passes problems text = .ok reduced) :
    MarkersAlone count reduced.text ∧
      ∀ table ∈ tablesIn count text, table ∈ tablesIn count reduced.text ∨
        ∃ stage block, markup.Meets render passes text stage block [] ∧
          table ∈ tablesIn count (block.inner stage) := by
  induction passes generalizing problems text with
  | zero =>
      rw [BlockMarkup.reduce] at reduces
      split at reduces
      · obtain rfl := Except.ok.inj reduces
        exact ⟨alone, fun table member => .inl member⟩
      · obtain rfl := Except.ok.inj reduces
        exact ⟨alone, fun table member => .inl member⟩
  | succ passes ih =>
      rw [BlockMarkup.reduce] at reduces
      split at reduces
      · obtain rfl := Except.ok.inj reduces
        exact ⟨alone, fun table member => .inl member⟩
      · obtain ⟨next, replaced, reduces⟩ := Outcome.bind_eq_ok_iff.mp reduces
        have row := (markup.inRow_scan text).mono fun tag => IsToken.of_mem_tags enclosed
        obtain ⟨aloneNext, kept⟩ := keeps_replaceBlocksFrom renders row
          (fun block found result rendered => spares text block result (.now found rendered))
          [] alone (fun _ => rfl) replaced
        obtain ⟨aloneEnd, keptLater⟩ := ih
          (fun stage block result met => spares stage block result (.later replaced met)) aloneNext reduces
        refine ⟨aloneEnd, fun table member => ?_⟩
        rcases kept table member with stays | ⟨block, found, rendered, lost⟩
        · rcases keptLater table stays with stays | ⟨stage, block, met, lost⟩
          · exact .inl stays
          · exact .inr ⟨stage, block, .later replaced met, lost⟩
        · exact .inr ⟨text, block, .now found rendered, lost⟩

end Pass

/-! ### Loops -/

section Loops

variable {source : Loop.Source} {text : Text}

/-- No text that the items of a collection supply holds the character of markers. -/
def SuppliesFree (source : Loop.Source) : Prop :=
  ∀ collection ∈ source.registry.toList, ∀ items,
    collection.items source.settings source.data source.surroundings = .ok items →
      ∀ item ∈ items, ∀ values,
        collection.itemValues source.settings source.data item = .ok values → AreFreeValues values

theorem isEnclosed_of_loop (place : Option Char) (rest : Text) (form : TagForm) (length : Nat)
    (recognised : Loop.markup.recognise place rest = some (form, length)) :
    IsEnclosed (rest.take length) := by
  obtain ⟨tag, after, isTag, rfl, rfl⟩ := Loop.recognise_eq_some_iff.mp recognised
  rw [List.take_left]
  exact .of_isBracketed (Loop.isBracketed_of_tagText isTag)

theorem rendersTables_loop (supplies : SuppliesFree source) :
    RendersTables count (Loop.render source) := by
  intro name body result rendered embeds
  cases found : source.registry.find? name with
  | none =>
      simp only [Loop.render, found, Except.ok.injEq] at rendered
      exact rendered ▸ .nil
  | some collection =>
      obtain ⟨items, listed, -⟩ := Outcome.bind_eq_ok_iff.mp (by
        simpa only [Loop.render, found] using rendered)
      have goesThrough := Loop.goesThrough_of_listed found listed
      cases uses : Loop.usesStem collection.stem body with
      | false =>
          obtain rfl := Except.ok.inj ((goesThrough.guarded body uses).symm.trans rendered)
          split
          · exact .nil
          · exact .trim embeds
      | true =>
          obtain ⟨texts, rfl, each⟩ := (goesThrough.repeated body result uses).mp rendered
          refine (Carries.flatten fun text member => ?_).2
          obtain ⟨item, isItem, own⟩ := Outcome.exists_of_forall₂ each member
          obtain ⟨values, areValues, isText⟩ := Outcome.bind_eq_ok_iff.mp own
          exact embeds.exchange (exchangeable_renderItem
            (supplies collection (Registry.mem_of_find? found) items listed item isItem values areValues)
            isText)

/-- Expanding loops keeps the markers. -/
theorem keeps_expand (supplies : SuppliesFree source) {passes : Int} {result : PassResult}
    (spares : ∀ stage block rendered,
      Loop.markup.Meets (Loop.render source) passes.toNat text stage block rendered →
        SparesTables stage block rendered)
    (alone : MarkersAlone count text) (expands : Loop.expand source passes text = .ok result) :
    MarkersAlone count result.text ∧
      ∀ table ∈ tablesIn count text, table ∈ tablesIn count result.text ∨
        ∃ stage block, Loop.markup.Meets (Loop.render source) passes.toNat text stage block [] ∧
          table ∈ tablesIn count (block.inner stage) := by
  rw [Loop.expand] at expands
  split at expands
  · obtain ⟨reduced, reduces, same⟩ := Outcome.bind_eq_ok_iff.mp expands
    obtain rfl := Except.ok.inj same
    obtain ⟨aloneReduced, kept⟩ :=
      keeps_reduce isEnclosed_of_loop (rendersTables_loop supplies) spares alone reduces
    obtain ⟨collapsed, tables⟩ := (exchangeable_collapse reduced.text).whole aloneReduced
    exact ⟨collapsed, tables ▸ kept⟩
  · obtain rfl := Except.ok.inj expands
    exact ⟨alone, fun table member => .inl member⟩

end Loops

/-! ### Conditional blocks -/

section Conditionals

variable {context : ContextMap} {text : Text}

/-- What a conditional block becomes. -/
def renderConditional (context : ContextMap) (argument inner : Text) : Outcome Text :=
  .ok (Conditional.render context argument inner)

theorem isEnclosed_of_conditional (place : Option Char) (rest : Text) (form : TagForm) (length : Nat)
    (recognised : Conditional.markup.recognise place rest = some (form, length)) :
    IsEnclosed (rest.take length) := by
  obtain ⟨tag, after, isTag, rfl, rfl⟩ :=
    (@Conditional.recognise_eq_some_iff place _ _ _).mp recognised
  rw [List.take_left]
  exact .of_isBracketed (Conditional.isBracketed_of_tagText isTag)

theorem rendersTables_conditional : RendersTables count (renderConditional context) := by
  intro argument inner result rendered embeds
  obtain rfl := Except.ok.inj rendered
  rw [Conditional.render]
  split
  · exact .trim embeds
  · exact .nil

/-- Stripping conditional blocks keeps the markers. -/
theorem keeps_strip {passes : Int} (spares : ∀ stage block rendered,
      Conditional.markup.Meets (renderConditional context) passes.toNat text stage block rendered →
        SparesTables stage block rendered)
    (alone : MarkersAlone count text) :
    MarkersAlone count (Conditional.strip context passes text).text ∧
      ∀ table ∈ tablesIn count text,
        table ∈ tablesIn count (Conditional.strip context passes text).text ∨
          ∃ stage block,
            Conditional.markup.Meets (renderConditional context) passes.toNat text stage block [] ∧
              table ∈ tablesIn count (block.inner stage) := by
  rw [Conditional.strip]
  split
  · have reduces := Conditional.markup.reduce_pure (Conditional.render context) passes.toNat [] text
    obtain ⟨aloneReduced, kept⟩ :=
      keeps_reduce isEnclosed_of_conditional rendersTables_conditional spares alone reduces
    obtain ⟨collapsed, tables⟩ := (exchangeable_collapse _).whole aloneReduced
    exact ⟨collapsed, tables ▸ kept⟩
  · exact ⟨alone, fun table member => .inl member⟩

end Conditionals

end Covenant.Word
