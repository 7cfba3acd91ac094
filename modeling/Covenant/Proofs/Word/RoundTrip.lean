import Covenant.Proofs.Word.Kept
import Covenant.Proofs.Word.RegionNames

/-!
# Reading a document and writing it back

The text of a region has a line for each of its paragraphs.  Written back, the lines go to the same
paragraphs, which stay as they are.  A paragraph with a line feed in its text is read as several lines,
though, and becomes several paragraphs.  So writing back what was read changes nothing exactly when no
paragraph has a line feed in its text.
-/

namespace Covenant

namespace Word

/-! ### Paragraphs written with their own lines -/

section Own

theorem Paragraph.updateText_own (paragraph : Paragraph) :
    paragraph.updateText paragraph.text = .ok paragraph := by
  rw [Paragraph.updateText, Word.updateText, if_pos (show textOfRuns paragraph.runs = paragraph.text from rfl)]
  rfl

theorem writeLines_own (paragraphs : List Paragraph) :
    writeLines paragraphs (paragraphs.map (·.text)) = .ok paragraphs := by
  induction paragraphs with
  | nil => rfl
  | cons paragraph paragraphs ih =>
      cases paragraphs with
      | nil =>
          rw [List.map_singleton, writeLines, paragraph.updateText_own]
          rfl
      | cons next paragraphs =>
          rw [List.map_cons] at ih ⊢
          rw [List.map_cons, writeLines, paragraph.updateText_own, Outcome.ok_bind, ih]
          rfl

theorem fillPlace_own (paragraphs : List Paragraph) :
    fillPlace paragraphs (paragraphs.map (·.text)) = .ok (paragraphs.map .paragraph) := by
  have place : (if paragraphs.isEmpty &&
      !((paragraphs.map (·.text) : List Text) = [] || (paragraphs.map (·.text) : List Text) = [[]]) then
        [({ runs := [] } : Paragraph)] else paragraphs) = paragraphs := by
    cases paragraphs <;> rfl
  rw [fillPlace]
  simp only [place, writeLines_own]
  rfl

end Own

/-! ### Line breaks -/

section Breaks

/-- A line break of either kind. -/
def isBreak (c : Char) : Bool := c = '\r' || c = '\n'

theorem countP_lines (text : Text) : (Text.lines text).flatten.countP isBreak = text.count '\r' := by
  rw [Text.lines, Text.flatten_splitAt, Text.removeChar, List.countP_filter, List.count]
  refine List.countP_congr fun c _ => ?_
  by_cases isReturn : c = '\r'
  · simp [isBreak, isReturn]
  · simp [isBreak, isReturn]

theorem count_unlines (pieces : List Text) :
    (Text.unlines pieces).count '\r' = pieces.flatten.count '\r' := by
  induction pieces with
  | nil => rfl
  | cons piece pieces ih =>
      cases pieces with
      | nil => rfl
      | cons next pieces =>
          rw [Text.unlines, Text.joinWith, List.intercalate_cons_cons, ← Text.joinWith, ← Text.unlines,
            List.append_assoc, List.count_append, List.count_append, ih, List.flatten_cons, List.count_append]
          simp

theorem noBreak_of_countP_le {text : Text} (few : text.countP isBreak ≤ text.count '\r') : '\n' ∉ text := by
  intro member
  obtain ⟨first, second, rfl⟩ := List.append_of_mem member
  have fewer (text : Text) : text.count '\r' ≤ text.countP isBreak :=
    List.countP_mono_left fun c _ isReturn => by simp_all [isBreak]
  have feed : isBreak '\n' = true := by decide
  have inFirst := fewer first
  have inSecond := fewer second
  rw [List.countP_append, List.countP_cons_of_pos feed, List.count_append, List.count_cons_of_ne (by decide)] at few
  omega

/-- Paragraphs without a line feed in their texts. -/
def AreUnbroken (lines : List Line) : Prop := ∀ line ∈ lines, '\n' ∉ textOfRuns line

instance : DecidablePred AreUnbroken := fun lines => List.decidableBAll (fun line => '\n' ∉ textOfRuns line) lines

/-- Lines are written back as they are exactly if none has a line feed in its text. -/
theorem writeText_own_iff {lines : List Line} :
    writeText lines (textOfLines lines) = .ok lines ↔ AreUnbroken lines := by
  constructor
  · intro write line isLine isBroken
    have few := countP_writeText_le (show isBreak '\r' = isBreak '\n' by decide) write
    rw [countP_lines, textOfLines, count_unlines] at few
    exact noBreak_of_countP_le few (List.mem_flatten_of_mem (List.mem_map_of_mem isLine) isBroken)
  · intro unbroken
    cases lines with
    | nil => rfl
    | cons line lines =>
        have isLines : Text.lines (textOfLines (line :: lines)) =
            ((line :: lines).map fun runs => ({ runs } : Paragraph)).map (·.text) := by
          have noBreaks : ∀ piece ∈ (line :: lines).map textOfRuns, '\n' ∉ piece :=
            List.forall_mem_map.mpr unbroken
          rw [textOfLines, Text.lines_unlines (by simp) noBreaks, List.map_map]
          rfl
        rw [writeText, isLines, writeLines_own, Outcome.ok_bind, List.map_map]
        exact congrArg Except.ok (List.map_id _)

end Breaks

/-! ### The body -/

/-- The lines of a body whose paragraphs have these lines, with markers for its tables. -/
def itemLines : Nat → List (Option Text) → List Text
  | _, [] => []
  | index, some line :: lines => line :: itemLines index lines
  | index, none :: lines => marker index :: itemLines (index + 1) lines

/-- What the text of a body is cut into again. -/
def ownPieces : Nat → List (Table × List Paragraph) → List (Nat × List Text)
  | _, [] => []
  | index, (_, paragraphs) :: rest => (index, paragraphs.map (·.text)) :: ownPieces (index + 1) rest

/-- The body of which a layout was made. -/
def BodyLayout.items (layout : BodyLayout) : List BodyItem :=
  layout.first.map .paragraph ++ layout.rest.flatMap fun entry => .table entry.1 :: entry.2.map .paragraph

theorem BodyLayout.items_ofBody (body : List BodyItem) : (ofBody body).items = body := by
  induction body with
  | nil => rfl
  | cons item body ih =>
      cases item with
      | paragraph paragraph => exact congrArg (.paragraph paragraph :: ·) ih
      | table table => exact congrArg (.table table :: ·) ih

section Body

variable {body items : List BodyItem} {count : Nat}

theorem itemLines_line? (body : List BodyItem) (index : Nat) :
    itemLines index (body.map BodyItem.line?) =
      (BodyLayout.ofBody body).first.map (·.text) ++ markedLines index (BodyLayout.ofBody body).rest := by
  induction body generalizing index with
  | nil => rfl
  | cons item body ih =>
      cases item with
      | paragraph own => exact congrArg (own.text :: ·) (ih index)
      | table table => exact congrArg (marker index :: ·) (ih (index + 1))

theorem bodyText_eq_unlines (body : List BodyItem) :
    bodyText body = Text.unlines (itemLines 0 (body.map BodyItem.line?)) := by
  rw [itemLines_line?, bodyText]

theorem tableCount_ofBody (body : List BodyItem) :
    (BodyLayout.ofBody body).tableCount = (body.map BodyItem.line?).countP Option.isNone := by
  induction body with
  | nil => rfl
  | cons item body ih =>
      cases item with
      | paragraph own => exact ih
      | table table =>
          have noLine : Option.isNone (BodyItem.line? (.table table)) = true := rfl
          rw [List.map_cons, List.countP_cons_of_pos noLine, ← ih]
          rfl

theorem filterMap_line?_congr (same : items.map BodyItem.line? = body.map BodyItem.line?) :
    items.filterMap BodyItem.line? = body.filterMap BodyItem.line? := by
  have fromLines (body : List BodyItem) :
      body.filterMap BodyItem.line? = (body.map BodyItem.line?).filterMap id := by
    rw [List.filterMap_map, Function.id_comp]
  rw [fromLines, same, ← fromLines]

theorem break_not_mem_marker (index : Nat) : '\n' ∉ marker index := fun member =>
  absurd (isBlank_of_mem_marker member) (by decide)

theorem return_not_mem_marker (index : Nat) : '\r' ∉ marker index := fun member =>
  absurd (isBlank_of_mem_marker member) (by decide)

theorem noBreak_itemLines (unbroken : ∀ line ∈ body.filterMap BodyItem.line?, '\n' ∉ line) (index : Nat) :
    ∀ line ∈ itemLines index (body.map BodyItem.line?), '\n' ∉ line := by
  induction body generalizing index with
  | nil => exact nofun
  | cons item body ih =>
      cases item with
      | paragraph own =>
          obtain ⟨noBreak, later⟩ := List.forall_mem_cons.mp unbroken
          exact List.forall_mem_cons.mpr ⟨noBreak, ih later index⟩
      | table table =>
          exact List.forall_mem_cons.mpr ⟨break_not_mem_marker index, ih unbroken (index + 1)⟩

theorem count_itemLines (body : List BodyItem) (index : Nat) :
    (itemLines index (body.map BodyItem.line?)).flatten.count '\r' = (textOfItems body).count '\r' := by
  induction body generalizing index with
  | nil => rfl
  | cons item body ih =>
      cases item with
      | paragraph own =>
          show (own.text ++ (itemLines index (body.map BodyItem.line?)).flatten).count '\r' =
            (own.text ++ textOfItems body).count '\r'
          rw [List.count_append, ih, List.count_append]
      | table table =>
          show (marker index ++ (itemLines (index + 1) (body.map BodyItem.line?)).flatten).count '\r' =
            (textOfItems body).count '\r'
          rw [List.count_append, ih, List.count_eq_zero.mpr (return_not_mem_marker index), Nat.zero_add]

theorem markerIndex?_marker {index : Nat} (readable : (Text.ofNat index).length ≤ maxIntegerDigits) :
    markerIndex? (marker index) = .ok (some index) := by
  rw [markerIndex?, markerDigits?_of_marker (trim_marker index)]
  simp only [Value.integerOfText, readInteger_ofNat]
  rw [if_neg (Nat.not_lt.mpr readable)]
  rfl

/-- A body is cut at its tables if none of its paragraphs is taken for a marker. -/
theorem cutLines_own (readable : ∀ table < count, (Text.ofNat table).length ≤ maxIntegerDigits)
    (noMarkers : ∀ line ∈ body.filterMap BodyItem.line?, markerDigits? line = none) {index : Nat}
    (complete : index + (BodyLayout.ofBody body).tableCount = count) {lastKept : Option Nat}
    (before : ∀ kept ∈ lastKept, kept < index) :
    cutLines count lastKept (itemLines index (body.map BodyItem.line?)) =
      .ok ⟨(BodyLayout.ofBody body).first.map (·.text), ownPieces index (BodyLayout.ofBody body).rest⟩ := by
  induction body generalizing index lastKept with
  | nil => rfl
  | cons item body ih =>
      cases item with
      | paragraph own =>
          obtain ⟨noMarker, later⟩ := List.forall_mem_cons.mp noMarkers
          show cutLines count lastKept (own.text :: itemLines index (body.map BodyItem.line?)) = _
          rw [cutLines, markerIndex?, noMarker, Outcome.ok_bind]
          dsimp only
          rw [ih later complete before]
          rfl
      | table table =>
          have inRange : index < count := by
            have oneMore : (BodyLayout.ofBody (.table table :: body)).tableCount =
              (BodyLayout.ofBody body).tableCount + 1 := rfl
            omega
          have counts : (decide (index < count) && lastKept.all fun kept => kept < index) = true := by
            simpa [inRange, Option.all_eq_true] using before
          have behind := @ih noMarkers (index + 1) ((Nat.add_right_comm _ _ _).trans complete) (some index)
            (by rintro kept ⟨⟩; exact Nat.lt_succ_self _)
          show cutLines count lastKept (marker index :: itemLines (index + 1) (body.map BodyItem.line?)) = _
          rw [cutLines, markerIndex?_marker (readable index inRange), Outcome.ok_bind]
          simp only [counts, if_true, behind]
          rfl

theorem writePieces_own (paragraphs : List Paragraph) (rest : List (Table × List Paragraph)) (index : Nat) :
    writePieces index paragraphs (paragraphs.map (·.text)) (ownPieces index rest) rest =
      .ok (BodyLayout.items ⟨paragraphs, rest⟩) := by
  induction rest generalizing index paragraphs with
  | nil =>
      rw [writePieces, fillPlace_own, BodyLayout.items, List.flatMap_nil, List.append_nil]
  | cons entry rest ih =>
      obtain ⟨table, after⟩ := entry
      rw [ownPieces, writePieces, if_pos rfl, fillPlace_own, Outcome.ok_bind, ih after (index + 1)]
      rfl

/-- A body is written back as it is if no paragraph has a line feed in its text or is taken for a marker. -/
theorem writeBody_own (unbroken : ∀ line ∈ body.filterMap BodyItem.line?, '\n' ∉ line)
    (noMarkers : ∀ line ∈ body.filterMap BodyItem.line?, markerDigits? line = none)
    (readable : ∀ table < (BodyLayout.ofBody body).tableCount, (Text.ofNat table).length ≤ maxIntegerDigits) :
    writeBody body (bodyText body) = .ok body := by
  by_cases empty : itemLines 0 (body.map BodyItem.line?) = []
  · cases body with
    | nil => rfl
    | cons item body => cases item <;> cases empty
  · have cut := @cutLines_own body _ readable noMarkers 0 (Nat.zero_add _) none nofun
    have written := writePieces_own (BodyLayout.ofBody body).first (BodyLayout.ofBody body).rest 0
    rw [BodyLayout.items_ofBody] at written
    rw [writeBody, bodyText_eq_unlines, cutBody, Text.lines_unlines empty (noBreak_itemLines unbroken 0)]
    exact Outcome.bind_eq_ok_iff.mpr ⟨_, cut, written⟩

/-- Where a body becomes what was read, none of its paragraphs has a line feed in its text. -/
theorem noBreak_of_writeBody (write : writeBody items (bodyText body) = .ok body) :
    ∀ line ∈ body.filterMap BodyItem.line?, '\n' ∉ line := by
  intro line isLine isBroken
  have few := countP_writeBody_le (show isBreak '\r' = isBreak '\n' by decide) write
  rw [countP_lines, bodyText_eq_unlines, count_unlines, count_itemLines] at few
  exact noBreak_of_countP_le few (List.mem_flatten_of_mem isLine isBroken)

end Body

/-! ### Headers, footers and cells -/

/-- The header and the footer of a section have no line feed in the text of a paragraph. -/
structure Section.IsUnbroken (part : Section) : Prop where
  header : ∀ lines ∈ part.header, AreUnbroken lines
  footer : ∀ lines ∈ part.footer, AreUnbroken lines

instance : DecidablePred Section.IsUnbroken := fun part =>
  decidable_of_iff ((∀ lines ∈ part.header, AreUnbroken lines) ∧ ∀ lines ∈ part.footer, AreUnbroken lines)
    ⟨fun ⟨header, footer⟩ => ⟨header, footer⟩, fun ⟨header, footer⟩ => ⟨header, footer⟩⟩

def Cell.IsUnbroken : Cell → Prop
  | .content lines _ => AreUnbroken lines
  | .continued => True

instance : DecidablePred Cell.IsUnbroken
  | .content lines _ => inferInstanceAs (Decidable (AreUnbroken lines))
  | .continued => .isTrue trivial

def Table.IsUnbroken (table : Table) : Prop := ∀ cells ∈ table, ∀ cell ∈ cells, cell.IsUnbroken

instance : DecidablePred Table.IsUnbroken := fun table =>
  inferInstanceAs (Decidable (∀ cells ∈ table, ∀ cell ∈ cells, cell.IsUnbroken))

/-- No line feed in the section that a paragraph ends, or in the cells of a table. -/
def BodyItem.HasUnbrokenParts : BodyItem → Prop
  | .paragraph own => ∀ part ∈ own.sectionEnd, part.IsUnbroken
  | .table rows => Table.IsUnbroken rows

instance : DecidablePred BodyItem.HasUnbrokenParts
  | .paragraph own => inferInstanceAs (Decidable (∀ part ∈ own.sectionEnd, part.IsUnbroken))
  | .table rows => inferInstanceAs (Decidable (Table.IsUnbroken rows))

section Parts

variable {texts : List (Text × Text)}

/-- Regions are looked up under their own names. -/
def FindsOwn (texts regions : List (Text × Text)) : Prop :=
  ∀ entry ∈ regions, texts.lookup entry.1 = some entry.2

theorem findsOwn_append {first second : List (Text × Text)} :
    FindsOwn texts (first ++ second) ↔ FindsOwn texts first ∧ FindsOwn texts second := List.forall_mem_append

/-- A header or a footer with the text of its own region. -/
theorem writePart_own_iff {kind : Text} {index : Nat} {part : Option (List Line)}
    (own : FindsOwn texts (partRegion kind index part)) :
    writePart texts kind index part = .ok part ↔ ∀ lines ∈ part, AreUnbroken lines := by
  cases part with
  | none => exact iff_of_true rfl nofun
  | some lines =>
      cases isRegion : partRegion kind index (some lines) with
      | nil =>
          -- a part without a region has no text
          have blank : ∀ line ∈ lines, textOfRuns line = [] := by
            simpa [partRegion] using isRegion
          refine iff_of_true (by simp only [writePart, isRegion]) ?_
          rintro _ ⟨⟩ line isLine
          rw [blank line isLine]
          exact List.not_mem_nil
      | cons entry others =>
          have member : entry ∈ partRegion kind index (some lines) := isRegion ▸ List.mem_cons_self
          have found := own entry member
          obtain ⟨_, ⟨⟩, -, rfl⟩ := mem_partRegion.mp member
          simp only [writePart, isRegion, found]
          show some <$> writeText lines (textOfLines lines) = .ok (some lines) ↔ _
          rw [Outcome.map_eq_ok_iff]
          simp [writeText_own_iff]

theorem writeSection_own_iff {index : Nat} {part : Section}
    (own : FindsOwn texts (partRegion "header" index part.header ++ partRegion "footer" index part.footer)) :
    writeSection texts index part = .ok part ↔ part.IsUnbroken := by
  obtain ⟨ownHeader, ownFooter⟩ := findsOwn_append.mp own
  constructor
  · intro write
    obtain ⟨header, isHeader, write⟩ := Outcome.bind_eq_ok_iff.mp write
    obtain ⟨footer, isFooter, same⟩ := Outcome.bind_eq_ok_iff.mp write
    obtain rfl := Except.ok.inj same
    exact ⟨(writePart_own_iff ownHeader).mp isHeader, (writePart_own_iff ownFooter).mp isFooter⟩
  · intro unbroken
    rw [writeSection, (writePart_own_iff ownHeader).mpr unbroken.header, Outcome.ok_bind,
      (writePart_own_iff ownFooter).mpr unbroken.footer]
    rfl

theorem writeCell_own_iff {table row : Nat} {placed : PlacedCell}
    (own : FindsOwn texts (rowRegions table row [placed])) :
    writeCell texts table row placed = .ok placed.cell ↔ placed.cell.IsUnbroken := by
  rw [writeCell]
  cases isCell : placed.cell with
  | content lines span =>
      have found := own _ (mem_rowRegions.mpr ⟨placed, List.mem_singleton_self _, lines, span, isCell, rfl⟩)
      simp only [found]
      show (Cell.content · span) <$> writeText lines (textOfLines lines) = .ok (.content lines span) ↔ _
      rw [Outcome.map_eq_ok_iff]
      simp [writeText_own_iff, Cell.IsUnbroken]
  | continued => exact iff_of_true rfl trivial

theorem writeRows_own_iff {table row : Nat} {rows : List (List PlacedCell)}
    (own : FindsOwn texts (rowsRegions table row rows)) :
    writeRows texts table row rows = .ok (rows.map fun cells => cells.map (·.cell)) ↔
      ∀ cells ∈ rows, ∀ placed ∈ cells, placed.cell.IsUnbroken := by
  induction rows generalizing row with
  | nil => exact iff_of_true rfl nofun
  | cons cells rows ih =>
      obtain ⟨ownCells, ownLater⟩ := findsOwn_append.mp own
      have each : ∀ placed ∈ cells,
          (writeCell texts table row placed = .ok placed.cell ↔ placed.cell.IsUnbroken) := by
        intro placed member
        refine writeCell_own_iff fun entry isEntry => ownCells entry ?_
        obtain ⟨_, isPlaced, region⟩ := mem_rowRegions.mp isEntry
        obtain rfl := List.mem_singleton.mp isPlaced
        exact mem_rowRegions.mpr ⟨_, member, region⟩
      constructor
      · intro write
        obtain ⟨written, areWritten, write⟩ := Outcome.bind_eq_ok_iff.mp write
        obtain ⟨later, isLater, same⟩ := Outcome.bind_eq_ok_iff.mp write
        obtain ⟨rfl, rfl⟩ := List.cons.inj (Except.ok.inj same)
        have unchanged := List.forall₂_same.mp
          (List.forall₂_map_right_iff.mp (Outcome.mapM_eq_ok_iff.mp areWritten))
        exact List.forall_mem_cons.mpr
          ⟨fun placed member => (each placed member).mp (unchanged placed member), (ih ownLater).mp isLater⟩
      · intro unbroken
        obtain ⟨unbrokenCells, unbrokenLater⟩ := List.forall_mem_cons.mp unbroken
        rw [writeRows, Outcome.mapM_eq_ok fun placed member => (each placed member).mpr (unbrokenCells placed member),
          Outcome.ok_bind, (ih ownLater).mpr unbrokenLater]
        rfl

theorem cells_placeRow (above : List PlacedCell) (column : Nat) (cells : List Cell) :
    (placeRow above column cells).map (·.cell) = cells := by
  induction cells generalizing column with
  | nil => rfl
  | cons cell cells ih => rw [placeRow_cons, List.map_cons, ih]

theorem cells_placeRows (above : List PlacedCell) (table : Table) :
    (placeRows above table).map (fun cells => cells.map (·.cell)) = table := by
  induction table generalizing above with
  | nil => rfl
  | cons row table ih => rw [placeRows, List.map_cons, cells_placeRow, ih]

theorem forall_placeRows_iff {Holds : Cell → Prop} (above : List PlacedCell) (table : Table) :
    (∀ cells ∈ placeRows above table, ∀ placed ∈ cells, Holds placed.cell) ↔
      ∀ cells ∈ table, ∀ cell ∈ cells, Holds cell := by
  conv_rhs => rw [← cells_placeRows above table]
  simp only [List.forall_mem_map]

/-- A table with the texts of its own cells. -/
theorem writeTable_own_iff {table : Nat} {rows : Table}
    (own : FindsOwn texts (rowsRegions table 0 (placeRows [] rows))) :
    writeRows texts table 0 (placeRows [] rows) = .ok rows ↔ Table.IsUnbroken rows := by
  have written := writeRows_own_iff own
  rwa [cells_placeRows, forall_placeRows_iff] at written

theorem sectionRegions_append (index : Nat) (first second : List Section) :
    sectionRegions index (first ++ second) =
      sectionRegions index first ++ sectionRegions (index + first.length) second := by
  induction first generalizing index with
  | nil => rfl
  | cons part first ih =>
      rw [List.cons_append, sectionRegions, ih, sectionRegions, List.length_cons,
        List.append_assoc _ _ (sectionRegions _ second), Nat.add_assoc, Nat.add_comm 1]

/-- The tables among items of a body. -/
def tablesAmong (items : List BodyItem) : List Table := Document.tables { body := items }

theorem hasUnbrokenParts_paragraph {own : Paragraph} {ended : Option Section} (ends : own.sectionEnd = ended) :
    (BodyItem.paragraph own).HasUnbrokenParts ↔ ∀ part ∈ ended, part.IsUnbroken := by
  rw [BodyItem.HasUnbrokenParts, ends]

/-- The sections and tables of a body with the texts of their own regions. -/
theorem writeParts_own_iff {part table last : Nat} {items : List BodyItem}
    (ownSections : FindsOwn texts (sectionRegions part (Document.sectionEnds items)))
    (ownTables : FindsOwn texts (tableRegions table (tablesAmong items))) :
    writeParts texts part table items = .ok (items, last) ↔
      (∀ item ∈ items, item.HasUnbrokenParts) ∧ last = part + (Document.sectionEnds items).length := by
  induction items generalizing part table with
  | nil => simp [writeParts, Document.sectionEnds, eq_comm]
  | cons item items ih =>
      rw [List.forall_mem_cons, and_assoc]
      cases item with
      | paragraph paragraph =>
          rw [writeParts]
          cases ends : paragraph.sectionEnd with
          | none =>
              have sameEnds : Document.sectionEnds (.paragraph paragraph :: items) = Document.sectionEnds items := by
                simp [Document.sectionEnds, ends]
              rw [sameEnds] at ownSections ⊢
              have noEnd : ∀ part ∈ (none : Option Section), part.IsUnbroken := by simp
              rw [hasUnbrokenParts_paragraph ends, and_iff_right noEnd, ← ih ownSections ownTables,
                Outcome.bind_eq_ok_iff]
              constructor
              · rintro ⟨⟨written, number⟩, isWritten, same⟩
                obtain ⟨⟨⟩, rfl⟩ := Prod.mk.inj (Except.ok.inj same)
                exact isWritten
              · exact fun isWritten => ⟨_, isWritten, rfl⟩
          | some ended =>
              have firstEnd : Document.sectionEnds (.paragraph paragraph :: items) =
                  ended :: Document.sectionEnds items := by
                simp [Document.sectionEnds, ends]
              rw [firstEnd] at ownSections ⊢
              obtain ⟨ownParts, ownLater⟩ := findsOwn_append.mp ownSections
              have number : part + (ended :: Document.sectionEnds items).length =
                  part + 1 + (Document.sectionEnds items).length := by
                rw [List.length_cons]
                omega
              have unbrokenIff : (∀ part ∈ some ended, part.IsUnbroken) ↔ ended.IsUnbroken := by simp
              rw [hasUnbrokenParts_paragraph ends, unbrokenIff, ← writeSection_own_iff ownParts, number,
                ← ih ownLater ownTables, Outcome.bind_eq_ok_iff]
              constructor
              · rintro ⟨part, isPart, write⟩
                obtain ⟨⟨written, last⟩, isWritten, same⟩ := Outcome.bind_eq_ok_iff.mp write
                obtain ⟨sameItems, rfl⟩ := Prod.mk.inj (Except.ok.inj same)
                obtain ⟨sameParagraph, rfl⟩ := List.cons.inj sameItems
                have sameEnd : some part = some ended :=
                  (congrArg Paragraph.sectionEnd (BodyItem.paragraph.inj sameParagraph)).trans ends
                obtain rfl := Option.some.inj sameEnd
                exact ⟨isPart, isWritten⟩
              · rintro ⟨isPart, isWritten⟩
                refine ⟨ended, isPart, Outcome.bind_eq_ok_iff.mpr ⟨_, isWritten, ?_⟩⟩
                rw [← ends]
                rfl
      | table rows =>
          obtain ⟨ownRows, ownLater⟩ := findsOwn_append.mp ownTables
          have sameEnds : Document.sectionEnds (.table rows :: items) = Document.sectionEnds items := rfl
          rw [writeParts, BodyItem.HasUnbrokenParts, ← writeTable_own_iff ownRows, sameEnds,
            ← ih ownSections ownLater, Outcome.bind_eq_ok_iff]
          constructor
          · rintro ⟨table, isTable, write⟩
            obtain ⟨⟨written, number⟩, isWritten, same⟩ := Outcome.bind_eq_ok_iff.mp write
            obtain ⟨⟨⟩, rfl⟩ := Prod.mk.inj (Except.ok.inj same)
            exact ⟨isTable, isWritten⟩
          · rintro ⟨isTable, isWritten⟩
            exact ⟨rows, isTable, Outcome.bind_eq_ok_iff.mpr ⟨_, isWritten, rfl⟩⟩

/-- Sections and tables are written without a change to the lines of the body. -/
theorem line?_of_writeParts {part table : Nat} {items results : List BodyItem} {last : Nat}
    (write : writeParts texts part table items = .ok (results, last)) :
    results.map BodyItem.line? = items.map BodyItem.line? := by
  induction items generalizing part table results last with
  | nil =>
      obtain ⟨rfl, -⟩ := Prod.mk.inj (Except.ok.inj write)
      rfl
  | cons item items ih =>
      cases item with
      | paragraph paragraph =>
          rw [writeParts] at write
          cases ends : paragraph.sectionEnd with
          | none =>
              rw [ends] at write
              obtain ⟨⟨written, number⟩, isWritten, same⟩ := Outcome.bind_eq_ok_iff.mp write
              obtain ⟨rfl, -⟩ := Prod.mk.inj (Except.ok.inj same)
              rw [List.map_cons, ih isWritten, List.map_cons]
          | some ended =>
              rw [ends] at write
              obtain ⟨part, isPart, write⟩ := Outcome.bind_eq_ok_iff.mp write
              obtain ⟨⟨written, number⟩, isWritten, same⟩ := Outcome.bind_eq_ok_iff.mp write
              obtain ⟨rfl, -⟩ := Prod.mk.inj (Except.ok.inj same)
              rw [List.map_cons, ih isWritten, List.map_cons]
              rfl
      | table rows =>
          obtain ⟨table, isTable, write⟩ := Outcome.bind_eq_ok_iff.mp write
          obtain ⟨⟨written, number⟩, isWritten, same⟩ := Outcome.bind_eq_ok_iff.mp write
          obtain ⟨rfl, -⟩ := Prod.mk.inj (Except.ok.inj same)
          rw [List.map_cons, ih isWritten, List.map_cons]
          rfl

end Parts

/-! ### Documents -/

namespace Document

/-- No paragraph of a document has a line feed in its text: none of the body, of a cell, or of a header
or a footer. -/
structure IsUnbroken (document : Document) : Prop where
  body : ∀ line ∈ document.body.filterMap BodyItem.line?, '\n' ∉ line
  parts : ∀ item ∈ document.body, item.HasUnbrokenParts
  lastSection : document.lastSection.IsUnbroken

instance : DecidablePred IsUnbroken := fun document =>
  decidable_of_iff ((∀ line ∈ document.body.filterMap BodyItem.line?, '\n' ∉ line) ∧
      (∀ item ∈ document.body, item.HasUnbrokenParts) ∧ document.lastSection.IsUnbroken)
    ⟨fun ⟨body, parts, last⟩ => ⟨body, parts, last⟩,
      fun ⟨body, parts, last⟩ => ⟨body, parts, last⟩⟩

/-- A document whose text can be read: no paragraph of the body is taken for a marker, and the numbers
of its tables can be read from their markers. -/
structure IsReadable (document : Document) : Prop where
  noMarkers : ∀ line ∈ document.body.filterMap BodyItem.line?, markerDigits? line = none
  numbers : ∀ table < (BodyLayout.ofBody document.body).tableCount,
    (Text.ofNat table).length ≤ maxIntegerDigits

theorem writeBody_own_of_line? {document : Document} (readable : document.IsReadable)
    (unbroken : ∀ line ∈ document.body.filterMap BodyItem.line?, '\n' ∉ line) {items : List BodyItem}
    (same : items.map BodyItem.line? = document.body.map BodyItem.line?) :
    writeBody items (bodyText document.body) = .ok items := by
  have sameLines := filterMap_line?_congr same
  rw [bodyText_eq_unlines, ← same, ← bodyText_eq_unlines]
  refine writeBody_own (sameLines ▸ unbroken) (sameLines ▸ readable.noMarkers) ?_
  rw [tableCount_ofBody, same, ← tableCount_ofBody]
  exact readable.numbers

/-- **A document is as before after writing back what was read exactly if no paragraph has a line feed
in its text.** -/
theorem writeRegions_regions_iff (document : Document) (wide : document.HasWideCells)
    (readable : document.IsReadable) :
    document.writeRegions document.regions = .ok document ↔ document.IsUnbroken := by
  have ownNames : FindsOwn document.regions document.regions := fun entry member =>
    (haveOwnNames_regions wide).lookup member
  obtain ⟨ownBody, ownParts⟩ := List.forall_mem_cons.mp ownNames
  obtain ⟨ownSections, ownTables⟩ := findsOwn_append.mp ownParts
  rw [sections, sectionRegions_append] at ownSections
  obtain ⟨ownEnds, ownLast⟩ := findsOwn_append.mp ownSections
  rw [sectionRegions, sectionRegions, List.append_nil] at ownLast
  constructor
  · intro write
    obtain ⟨⟨items, last⟩, areParts, write⟩ := Outcome.bind_eq_ok_iff.mp write
    obtain ⟨lastSection, isLast, write⟩ := Outcome.bind_eq_ok_iff.mp write
    rw [ownBody] at write
    obtain ⟨body, isBody, same⟩ := Outcome.bind_eq_ok_iff.mp write
    obtain rfl := Except.ok.inj same
    have unbroken := noBreak_of_writeBody isBody
    -- the lines of the body go back to the items with the new parts, so these are the old ones
    have own := writeBody_own_of_line? readable unbroken (line?_of_writeParts areParts)
    obtain rfl := Except.ok.inj (own.symm.trans isBody)
    obtain ⟨unbrokenParts, rfl⟩ := (writeParts_own_iff ownEnds ownTables).mp areParts
    exact ⟨unbroken, unbrokenParts, (writeSection_own_iff ownLast).mp isLast⟩
  · intro unbroken
    have areParts := (writeParts_own_iff ownEnds ownTables).mpr ⟨unbroken.parts, rfl⟩
    have isBody := writeBody_own_of_line? readable unbroken.body rfl
    rw [writeRegions, areParts, Outcome.ok_bind]
    dsimp only
    rw [(writeSection_own_iff ownLast).mpr unbroken.lastSection, Outcome.ok_bind, ownBody]
    dsimp only
    rw [isBody]
    rfl

/-- Two sections with a header and a footer, and a table with a wide cell and one with two lines. -/
def letter : Document where
  body := [
    .paragraph { runs := [{ text := "Dear ", bold := some true }, { text := "Anna," }] },
    .table [[.content [[{ text := "Children" }]] 2],
      [.content [[{ text := "Sam" }], [{ text := "Noor" }]] 1, .content [[]] 1]],
    .paragraph { runs := [], sectionEnd := some { header := some [[{ text := "Plan" }]] } },
    .paragraph { runs := [{ text := "Regards" }] }]
  lastSection := { footer := some [[{ text := "Page" }], []] }

theorem writeRegions_regions_letter : letter.HasWideCells ∧ letter.IsReadable ∧ letter.IsUnbroken ∧
    letter.writeRegions letter.regions = .ok letter := by
  have wide : letter.HasWideCells := by decide
  have readable : letter.IsReadable := ⟨by decide +kernel, by decide +kernel⟩
  have unbroken : letter.IsUnbroken := by decide
  exact ⟨wide, readable, unbroken, (writeRegions_regions_iff letter wide readable).mpr unbroken⟩

/-- A paragraph of two lines. -/
def address : Document where
  body := [.paragraph { runs := [{ text := "Main street\nAmsterdam" }] }]

/-- The lines of one paragraph become two paragraphs. -/
theorem writeRegions_regions_address : address.HasWideCells ∧ address.IsReadable ∧
    address.writeRegions address.regions ≠ .ok address := by
  refine ⟨by decide, ⟨by decide +kernel, by decide +kernel⟩, fun unchanged => ?_⟩
  have twoParagraphs : (address.writeRegions address.regions).toOption.map (·.body.length) = some 2 := by
    decide +kernel
  rw [unchanged] at twoParagraphs
  cases twoParagraphs

end Document

end Word

end Covenant
