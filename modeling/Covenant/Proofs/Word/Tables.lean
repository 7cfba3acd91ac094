import Covenant.Proofs.Resolver
import Covenant.Proofs.Word.Blocks
import Covenant.Proofs.Word.Kept

/-!
# Tables through the passes

The text of a body has the markers of all its tables, alone on their lines.  When no value brings a
marker along and no exchange of a block moves one next to other text, all passes keep it so: the
resolved text can be cut at its markers, no paragraph gets any part of one, and a table is taken out
only with a block around its marker that was exchanged for nothing.
-/

namespace Covenant

namespace Word

/-! ### The text of a body -/

theorem BodyLayout.mem_of_mem_rows {body : List BodyItem} {paragraphs : List Paragraph}
    (isRow : paragraphs ∈ (ofBody body).rows) {paragraph : Paragraph} (member : paragraph ∈ paragraphs) :
    .paragraph paragraph ∈ body := by
  induction body generalizing paragraphs with
  | nil =>
      obtain rfl : paragraphs = [] := by simpa [ofBody, rows] using isRow
      cases member
  | cons item items ih =>
      have later {row : List Paragraph} (isLater : row ∈ (ofBody items).rows)
          (inRow : paragraph ∈ row) : .paragraph paragraph ∈ item :: items :=
        List.mem_cons_of_mem item (ih isLater inRow)
      cases item with
      | paragraph own =>
          rcases List.mem_cons.mp isRow with rfl | isLater
          · rcases List.mem_cons.mp member with rfl | member
            · exact List.mem_cons_self
            · exact later List.mem_cons_self member
          · exact later (List.mem_cons_of_mem _ isLater) member
      | table table =>
          rcases List.mem_cons.mp isRow with rfl | isLater
          · cases member
          · exact later isLater member

theorem keeps_unlines {count : Nat} {lines : List Text} (each : ∀ line ∈ lines, MarkersAlone count line) :
    MarkersAlone count (Text.unlines lines) ∧
      tablesIn count (Text.unlines lines) = lines.flatMap (tablesIn count) := by
  have nothing : markerEdge ∉ ([] : Text) := List.not_mem_nil
  induction lines with
  | nil => exact ⟨markersAlone_of_free nothing, tablesIn_of_free nothing⟩
  | cons line lines ih =>
      obtain ⟨own, later⟩ := List.forall_mem_cons.mp each
      cases lines with
      | nil => simpa [Text.unlines, Text.joinWith] using own
      | cons next lines =>
          obtain ⟨alone, tables⟩ := ih later
          have isText : Text.unlines (line :: next :: lines) =
              line ++ '\n' :: Text.unlines (next :: lines) := by
            simp [Text.unlines, Text.joinWith]
          rw [isText, markersAlone_break_iff, tablesIn_break, tables]
          exact ⟨⟨own, alone⟩, rfl⟩

theorem tablesIn_marker {count index : Nat} (inRange : index < count) :
    MarkersAlone count (marker index) ∧ tablesIn count (marker index) = [index] := by
  have noBreak : '\n' ∉ marker index := fun member => by
    have notBlank := isBlank_of_mem_marker member
    cases notBlank
  have isLine := Text.lines_of_noBreak noBreak
  constructor
  · intro line member _
    rw [isLine] at member
    obtain rfl := List.mem_singleton.mp member
    exact ⟨index, inRange, trim_marker index⟩
  · rw [tablesIn, isLine, List.filterMap_cons,
      tableOn?_eq_some_iff.mpr ⟨inRange, trim_marker index⟩]
    rfl

theorem keeps_texts {count : Nat} {paragraphs : List Paragraph} (free : AreFree paragraphs) :
    (∀ line ∈ paragraphs.map Paragraph.text, MarkersAlone count line) ∧
      (paragraphs.map Paragraph.text).flatMap (tablesIn count) = [] := by
  refine ⟨fun line member => ?_, List.flatMap_eq_nil_iff.mpr fun line member => ?_⟩
  · obtain ⟨paragraph, isOne, rfl⟩ := List.mem_map.mp member
    exact markersAlone_of_free (free paragraph isOne)
  · obtain ⟨paragraph, isOne, rfl⟩ := List.mem_map.mp member
    exact tablesIn_of_free (free paragraph isOne)

theorem keeps_markedLines {count index : Nat} {rest : List (Table × List Paragraph)}
    (inRange : index + rest.length ≤ count) (free : ∀ entry ∈ rest, AreFree entry.2) :
    (∀ line ∈ markedLines index rest, MarkersAlone count line) ∧
      (markedLines index rest).flatMap (tablesIn count) = List.range' index rest.length := by
  induction rest generalizing index with
  | nil => exact ⟨nofun, rfl⟩
  | cons entry rest ih =>
      obtain ⟨table, paragraphs⟩ := entry
      obtain ⟨own, freeLater⟩ := List.forall_mem_cons.mp free
      rw [List.length_cons] at inRange
      obtain ⟨aloneMarker, isMarker⟩ := tablesIn_marker (show index < count by omega)
      obtain ⟨aloneTexts, noTables⟩ := @keeps_texts count _ own
      obtain ⟨aloneLater, tables⟩ := @ih (index + 1) (by omega) freeLater
      rw [markedLines]
      constructor
      · simp only [List.forall_mem_cons, List.forall_mem_append]
        exact ⟨⟨aloneMarker, aloneTexts⟩, aloneLater⟩
      · simp only [List.cons_append, List.flatMap_cons, List.flatMap_append, isMarker, noTables, tables,
          List.nil_append, List.length_cons, List.range'_succ]

/-- The text of a body has the markers of all its tables, in order. -/
theorem tablesIn_bodyText {body : List BodyItem}
    (free : ∀ paragraph, .paragraph paragraph ∈ body → markerEdge ∉ paragraph.text) :
    MarkersAlone (BodyLayout.ofBody body).tableCount (bodyText body) ∧
      tablesIn (BodyLayout.ofBody body).tableCount (bodyText body) =
        List.range (BodyLayout.ofBody body).tableCount := by
  have freeRow {row : List Paragraph} (isRow : row ∈ (BodyLayout.ofBody body).rows) : AreFree row :=
    fun paragraph member => free paragraph (BodyLayout.mem_of_mem_rows isRow member)
  obtain ⟨aloneFirst, noTables⟩ := @keeps_texts (BodyLayout.ofBody body).tableCount _
    (freeRow List.mem_cons_self)
  obtain ⟨aloneRest, tables⟩ := @keeps_markedLines (BodyLayout.ofBody body).tableCount 0
    (BodyLayout.ofBody body).rest (by simp [BodyLayout.tableCount]) fun entry member =>
      freeRow (List.mem_cons_of_mem _ (List.mem_map.mpr ⟨entry, member, rfl⟩))
  obtain ⟨alone, isTables⟩ := keeps_unlines (List.forall_mem_append.mpr ⟨aloneFirst, aloneRest⟩)
  refine ⟨alone, isTables.trans ?_⟩
  rw [List.flatMap_append, noTables, tables, List.range_eq_range']
  rfl

end Word

namespace Resolver

open Word

section Tables

variable (resolver : Resolver) (data : CaseData) (context : ContextMap) (text : Text)

/-- A block that is exchanged while a text is resolved: the block of a loop, or a conditional block
of the text in which loops are expanded. -/
inductive Exchanges : Text → Block → Text → Prop
  | loop {stage : Text} {block : Block} {result : Text}
      (met : Loop.markup.Meets (Loop.render (resolver.source data context))
        resolver.settings.maxLoopPasses.toNat text stage block result) : Exchanges stage block result
  | conditional {expanded : PassResult} {stage : Text} {block : Block} {result : Text}
      (expands : Loop.expand (resolver.source data context) resolver.settings.maxLoopPasses text =
        .ok expanded)
      (met : Conditional.markup.Meets (renderConditional context)
        resolver.settings.maxConditionalPasses.toNat expanded.text stage block result) :
      Exchanges stage block result

/-- No exchange of a block brings a marker next to other text. -/
def SparesTables : Prop :=
  ∀ stage block result, resolver.Exchanges data context text stage block result →
    Word.SparesTables stage block result

/-- A block around the marker of a table is exchanged for nothing. -/
def Removes (count table : Nat) : Prop :=
  ∃ stage block, resolver.Exchanges data context text stage block [] ∧
    table ∈ tablesIn count (block.inner stage)

end Tables

variable {resolver : Resolver} {data : CaseData} {context : ContextMap} {text : Text} {count : Nat}

/-- Resolving keeps markers alone on their lines, and all of them but those in blocks that are
exchanged for nothing. -/
theorem keeps_run (contextFree : IsFreeContext context)
    (supplies : SuppliesFree (resolver.source data context))
    (labelFree : markerEdge ∉ resolver.articleLabel)
    (spares : resolver.SparesTables data context text) (alone : MarkersAlone count text)
    {resolved : Resolved} (ran : resolver.run data context text = .ok resolved) :
    MarkersAlone count resolved.text ∧
      ∀ table ∈ tablesIn count text,
        table ∈ tablesIn count resolved.text ∨ resolver.Removes data context text count table := by
  obtain ⟨expanded, expands, ran⟩ := Outcome.bind_eq_ok_iff.mp ran
  obtain rfl := Except.ok.inj ran
  obtain ⟨aloneExpanded, keptByLoops⟩ := keeps_expand supplies
    (fun stage block rendered met => spares stage block rendered (.loop met)) alone expands
  obtain ⟨aloneStripped, keptByBlocks⟩ := keeps_strip
    (fun stage block rendered met => spares stage block rendered (.conditional expands met))
    aloneExpanded
  obtain ⟨aloneFilled, sameFilled⟩ := (exchangeable_resolve contextFree _).whole aloneStripped
  obtain ⟨aloneNumbered, sameNumbered⟩ := keeps_number labelFree .start aloneFilled
  refine ⟨aloneNumbered, fun table member => ?_⟩
  rcases keptByLoops table member with stays | ⟨stage, block, met, lost⟩
  · rcases keptByBlocks table stays with stays | ⟨stage, block, met, lost⟩
    · exact .inl (sameNumbered ▸ sameFilled ▸ stays)
    · exact .inr ⟨stage, block, .conditional expands met, lost⟩
  · exact .inr ⟨stage, block, .loop met, lost⟩

/-- **Tables are kept with the text around them.**  The paragraphs of a body and the values of a
context and its items hold no character of markers, and no exchange of a block brings a marker next to
other text.  Then in the resolved text every marker is alone on its line; a table without a marker was
in a block that was exchanged for nothing; and no paragraph of the body that is written holds the
character of markers.  The tables of that body are those of the markers, when these come in order. -/
theorem tables_kept {body : List BodyItem}
    (paragraphsFree : ∀ paragraph, .paragraph paragraph ∈ body → markerEdge ∉ paragraph.text)
    (contextFree : IsFreeContext context) (supplies : SuppliesFree (resolver.source data context))
    (labelFree : markerEdge ∉ resolver.articleLabel)
    (spares : resolver.SparesTables data context (bodyText body)) {resolved : Resolved}
    (ran : resolver.run data context (bodyText body) = .ok resolved) :
    MarkersAlone (BodyLayout.ofBody body).tableCount resolved.text ∧
      (∀ table < (BodyLayout.ofBody body).tableCount,
        table ∈ tablesIn (BodyLayout.ofBody body).tableCount resolved.text ∨
          resolver.Removes data context (bodyText body) (BodyLayout.ofBody body).tableCount table) ∧
      (CanBeHeld resolved.text →
        (∀ table < (BodyLayout.ofBody body).tableCount,
          (Text.ofNat table).length ≤ maxIntegerDigits) →
        Outcome.Returns (writeBody body resolved.text)) ∧
      ∀ written, writeBody body resolved.text = .ok written →
        (∀ paragraph, .paragraph paragraph ∈ written → markerEdge ∉ paragraph.text) ∧
          ((tablesIn (BodyLayout.ofBody body).tableCount resolved.text).Pairwise (· < ·) →
            (BodyLayout.ofBody written).tables =
              (tablesIn (BodyLayout.ofBody body).tableCount resolved.text).filterMap
                ((BodyLayout.ofBody body).tables[·]?)) := by
  obtain ⟨aloneBody, allTables⟩ := tablesIn_bodyText paragraphsFree
  obtain ⟨alone, kept⟩ := keeps_run contextFree supplies labelFree spares aloneBody ran
  refine ⟨alone, fun table inRange => kept table ?_, returns_writeBody_of_markersAlone alone,
    fun written => writeBody_of_markersAlone alone⟩
  rw [allTables]
  exact List.mem_range.mpr inRange

/-! ### Two documents -/

def tableData : CaseData := { today := { year := 2025, month := 4, day := 8 } }

/-- A context with one name, which counts as true. -/
def tableContext : ContextMap := { entries := [{ name := "X", text := "ja" }] }

def lineOf (text : Text) : BodyItem := .paragraph { runs := [{ text }] }

def keptTable : Table := [[.content [[]] 1]]

def removedTable : Table := [[.continued]]

/-- A table in a block that is kept and one in a block that is not, with the tags on lines of their own. -/
def apartBody : List BodyItem :=
  [lineOf "[[IF:X]]", .table keptTable, lineOf "[[ENDIF:X]]", lineOf "[[IF:Y]]", .table removedTable,
    lineOf "[[ENDIF:Y]]"]

/-- No paragraph among items of a body holds the character of markers. -/
def areFreeItems (body : List BodyItem) : Bool :=
  body.all fun
    | .paragraph paragraph => !paragraph.text.contains markerEdge
    | .table _ => true

theorem free_of_areFreeItems {body : List BodyItem} (free : areFreeItems body = true)
    (paragraph : Paragraph) (member : .paragraph paragraph ∈ body) : markerEdge ∉ paragraph.text := by
  have own := List.all_eq_true.mp free _ member
  simpa using own

theorem suppliesFree_tableData : SuppliesFree (({} : Resolver).source tableData tableContext) := by
  have noItems : ∀ collection ∈ Registry.usual.toList,
      (collection.items {} tableData tableContext.toMembers).toOption.all (·.isEmpty) = true := by
    decide +kernel
  intro collection member items listed item isItem
  have none := noItems collection member
  rw [show collection.items {} tableData tableContext.toMembers = .ok items from listed] at none
  rw [List.isEmpty_iff.mp none] at isItem
  cases isItem

/-- In a text without loops that has no conditional block after one pass, the exchanges are those of the
conditional blocks. -/
theorem exchange_of_onePass {stage : Text} {block : Block} {result : Text}
    (exchanges : ({} : Resolver).Exchanges tableData tableContext text stage block result)
    (noLoops : (Loop.markup.scan text).blocks.isEmpty = true)
    (expanded : (Loop.expand (({} : Resolver).source tableData tableContext) 10 text).toOption.map
      (·.text) = some text)
    (onePass : (replaceBlocks (renderConditional tableContext) text
      (Conditional.markup.scan text).blocks).toOption.all
        (fun next => (Conditional.markup.scan next).blocks.isEmpty) = true) :
    stage = text ∧ block ∈ (Conditional.markup.scan text).blocks ∧
      result = Conditional.render tableContext block.opening.argument (block.inner text) := by
  cases exchanges with
  | loop met => exact absurd (List.isEmpty_iff.mp noLoops) met.blocks_ne_nil
  | @conditional left _ _ _ expands met =>
      rw [show Loop.expand (({} : Resolver).source tableData tableContext) 10 text = .ok left from expands]
        at expanded
      have same : left.text = text := Option.some.inj expanded
      rw [same] at met
      obtain ⟨rfl, found, rendered⟩ := met.of_onePass fun next replaced => by
        rw [replaced] at onePass
        exact List.isEmpty_iff.mp onePass
      exact ⟨rfl, found, (Except.ok.inj rendered).symm⟩

theorem sparesTables_apartBody :
    ({} : Resolver).SparesTables tableData tableContext (bodyText apartBody) := by
  intro stage block result exchanges
  obtain ⟨rfl, found, rfl⟩ := exchange_of_onePass exchanges (by decide +kernel) (by decide +kernel)
    (by decide +kernel)
  have spared : ∀ block ∈ (Conditional.markup.scan (bodyText apartBody)).blocks,
      Word.SparesTables (bodyText apartBody) block (Conditional.render tableContext
        block.opening.argument (block.inner (bodyText apartBody))) := by
    decide +kernel
  exact spared block found

theorem tables_kept_apartBody : ∃ resolved written,
    ({} : Resolver).run tableData tableContext (bodyText apartBody) = .ok resolved ∧
      writeBody apartBody resolved.text = .ok written ∧ MarkersAlone 2 resolved.text ∧
      ({} : Resolver).Removes tableData tableContext (bodyText apartBody) 2 1 ∧
      (∀ paragraph, .paragraph paragraph ∈ written → markerEdge ∉ paragraph.text) ∧
      (BodyLayout.ofBody written).tables = [keptTable] := by
  have evaluated : (({} : Resolver).run tableData tableContext (bodyText apartBody)).toOption.map
      (·.text) = some (marker 0 ++ "\n") := by
    decide +kernel
  obtain ⟨resolved, isResolved, isText⟩ := Option.map_eq_some_iff.mp evaluated
  have ran := Outcome.eq_ok_of_toOption isResolved
  obtain ⟨alone, kept, returns, tables⟩ := tables_kept
    (free_of_areFreeItems (show areFreeItems apartBody = true by decide +kernel)) (by decide +kernel)
    suppliesFree_tableData (by decide) sparesTables_apartBody ran
  have left : tablesIn 2 resolved.text = [0] := by
    rw [isText]
    decide +kernel
  obtain ⟨written, isWritten⟩ := returns (by rw [isText]; decide +kernel) (by decide +kernel)
  obtain ⟨paragraphs, inOrder⟩ := tables written isWritten
  have isLost : 1 ∉ tablesIn 2 resolved.text := by
    rw [left]
    decide
  refine ⟨resolved, written, ran, isWritten, alone, (kept 1 (by decide)).resolve_left isLost, paragraphs,
    (inOrder ?_).trans ?_⟩
  · exact left.symm ▸ List.pairwise_singleton _ _
  · exact (congrArg _ left).trans rfl

/-- A table in a block that is kept.  Text stands in front of the block on its line. -/
def besideBody : List BodyItem :=
  [lineOf "Tekst [[IF:X]]", .table keptTable, lineOf "[[ENDIF:X]]"]

/-- Next to text a marker is not found again: its table is taken out although no block is exchanged for
nothing, and the paragraph gets the marker. -/
theorem table_lost_in_kept_block : ∃ resolved written,
    (∀ paragraph, .paragraph paragraph ∈ besideBody → markerEdge ∉ paragraph.text) ∧
      IsFreeContext tableContext ∧ SuppliesFree (({} : Resolver).source tableData tableContext) ∧
      markerEdge ∉ ({} : Resolver).articleLabel ∧
      ({} : Resolver).run tableData tableContext (bodyText besideBody) = .ok resolved ∧
      writeBody besideBody resolved.text = .ok written ∧
      ¬ MarkersAlone 1 resolved.text ∧ (BodyLayout.ofBody written).tables = [] ∧
      ¬ ({} : Resolver).Removes tableData tableContext (bodyText besideBody) 1 0 ∧
      ∃ paragraph, .paragraph paragraph ∈ written ∧ marker 0 <:+: paragraph.text := by
  have evaluated : (({} : Resolver).run tableData tableContext (bodyText besideBody)).toOption.map
      (·.text) = some ("Tekst " ++ marker 0) := by
    decide +kernel
  obtain ⟨resolved, isResolved, isText⟩ := Option.map_eq_some_iff.mp evaluated
  have isWritten : writeBody besideBody resolved.text = .ok [lineOf ("Tekst " ++ marker 0)] := by
    rw [isText]
    rfl
  refine ⟨resolved, _, free_of_areFreeItems (show areFreeItems besideBody = true by decide +kernel),
    by decide +kernel, suppliesFree_tableData, by decide, Outcome.eq_ok_of_toOption isResolved,
    isWritten, ?_, rfl, ?_, _, List.mem_singleton_self _, ("Tekst " : Text), [], by decide +kernel⟩
  · intro alone
    rw [isText] at alone
    obtain ⟨index, inRange, isMarker⟩ := alone ("Tekst " ++ marker 0) (by decide +kernel)
      (by decide +kernel)
    obtain rfl : index = 0 := by omega
    exact absurd isMarker (by decide +kernel)
  · rintro ⟨stage, block, exchanges, -⟩
    obtain ⟨rfl, found, isNothing⟩ := exchange_of_onePass exchanges (by decide +kernel)
      (by decide +kernel) (by decide +kernel)
    have isKept : ∀ block ∈ (Conditional.markup.scan (bodyText besideBody)).blocks,
        Conditional.render tableContext block.opening.argument (block.inner (bodyText besideBody)) ≠ [] := by
      decide +kernel
    exact isKept block found isNothing.symm

end Resolver

end Covenant
