import Covenant.Proofs.Text.Digits
import Covenant.Proofs.Word.Lines
import Covenant.Word.Body

/-!
# Text stays between its tables

Resolved text is cut at the markers of tables.  Written back, every piece becomes the paragraphs
between the tables around its place, one for each line; the tables whose markers are gone are
taken out, and the paragraphs on both sides of such a table become one place.
-/

namespace Covenant.Word

/-- What can be seen of a body: lines of text and tables. -/
inductive BodyContent where
  | line (text : Text)
  | table (table : Table)

def contentOf : BodyItem → BodyContent
  | .paragraph paragraph => .line paragraph.text
  | .table table => .table table

def contents (body : List BodyItem) : List BodyContent := body.map contentOf

namespace BodyLayout

def tables (layout : BodyLayout) : List Table := layout.rest.map (·.1)

/-- The rows of paragraphs before, between and after the tables. -/
def rows (layout : BodyLayout) : List (List Paragraph) := layout.first :: layout.rest.map (·.2)

/-- The paragraphs of the rows from `first` to `last`. -/
def paragraphsFrom (layout : BodyLayout) (first last : Nat) : List Paragraph :=
  ((layout.rows.take (last + 1)).drop first).flatten

end BodyLayout

/-- The lines at a place.  A single empty line makes no paragraph where there was none. -/
def linesAt (paragraphs : List Paragraph) (lines : List Text) : List BodyContent :=
  if paragraphs = [] ∧ lines = [[]] then [] else lines.map .line

/-- Pieces between the tables that are kept, from the row `first` on. -/
def contentsFrom (layout : BodyLayout) : Nat → List Text → List (Nat × List Text) → List BodyContent
  | first, lines, [] => linesAt (layout.paragraphsFrom first layout.tableCount) lines
  | first, lines, (kept, next) :: more =>
      linesAt (layout.paragraphsFrom first kept) lines ++
        ((layout.tables[kept]?).toList.map .table ++ contentsFrom layout (kept + 1) next more)

namespace BodyPieces

/-- Lines of the first piece, then every table that is kept with the lines after it. -/
def contents (pieces : BodyPieces) (layout : BodyLayout) : List BodyContent :=
  contentsFrom layout 0 pieces.first pieces.rest

def kept (pieces : BodyPieces) : List Nat := pieces.rest.map (·.1)

def texts (pieces : BodyPieces) : List Text :=
  (pieces.first :: pieces.rest.map (·.2)).map Text.unlines

end BodyPieces

/-- The texts before, between and after the tables of a body. -/
def textsBetweenTables (body : List BodyItem) : List Text :=
  (BodyLayout.ofBody body).rows.map fun paragraphs => Text.unlines (paragraphs.map (·.text))

/-! ### Cutting -/

section Cutting

variable {count : Nat} {lines : List Text} {pieces : BodyPieces} {lastKept : Option Nat}

/-- One step of the cut: a line that is no marker, the marker of a table that is kept, or another
marker. -/
theorem cutLines_cons {line : Text} (cut : cutLines count lastKept (line :: lines) = .ok pieces) :
    (∃ later, markerIndex? line = .ok none ∧ cutLines count lastKept lines = .ok later ∧
        pieces = { later with first := line :: later.first }) ∨
      (∃ index later, markerIndex? line = .ok (some index) ∧ index < count ∧
        (∀ earlier ∈ lastKept, earlier < index) ∧ cutLines count (some index) lines = .ok later ∧
        pieces = ⟨[], (index, later.first) :: later.rest⟩) ∨
      ∃ index, markerIndex? line = .ok (some index) ∧
        ¬ (index < count ∧ ∀ earlier ∈ lastKept, earlier < index) ∧
        cutLines count lastKept lines = .ok pieces := by
  rw [cutLines] at cut
  cases read : markerIndex? line with
  | error fault => simp [read, bind, Except.bind] at cut
  | ok found =>
      rw [read, Outcome.ok_bind] at cut
      cases found with
      | none =>
          cases cutLater : cutLines count lastKept lines with
          | error fault => simp [cutLater, bind, Except.bind] at cut
          | ok later =>
              refine .inl ⟨later, rfl, rfl, ?_⟩
              simpa [cutLater, bind, Except.bind, pure, Except.pure, eq_comm] using cut
      | some index =>
          by_cases counts : (decide (index < count) && lastKept.all fun earlier => earlier < index) = true
          · simp only [counts, if_true] at cut
            cases cutLater : cutLines count (some index) lines with
            | error fault => simp [cutLater, bind, Except.bind] at cut
            | ok later =>
                rw [Bool.and_eq_true, decide_eq_true_eq] at counts
                refine .inr (.inl ⟨index, later, rfl, counts.1, ?_, cutLater, ?_⟩)
                · simpa [Option.all_eq_true] using counts.2
                · simpa [cutLater, bind, Except.bind, pure, Except.pure, eq_comm] using cut
          · refine .inr (.inr ⟨index, rfl, ?_, by simpa [counts] using cut⟩)
            simpa [Option.all_eq_true] using counts

/-- The tables that are kept come in order, after the last one kept before. -/
theorem kept_of_cutLines (cut : cutLines count lastKept lines = .ok pieces) :
    pieces.kept.Pairwise (· < ·) ∧
      ∀ index ∈ pieces.kept, index < count ∧ ∀ earlier ∈ lastKept, earlier < index := by
  induction lines generalizing lastKept pieces with
  | nil =>
      obtain rfl : ⟨[], []⟩ = pieces := by simpa [cutLines] using cut
      simp [BodyPieces.kept]
  | cons line lines ih =>
      rcases cutLines_cons cut with
        ⟨later, -, cutLater, rfl⟩ | ⟨index, later, -, inRange, exceeds, cutLater, rfl⟩ |
        ⟨-, -, -, cutLater⟩
      · simpa [BodyPieces.kept] using ih cutLater
      · obtain ⟨increasing, bounds⟩ := ih cutLater
        refine ⟨List.pairwise_cons.mpr ⟨fun other member => ?_, increasing⟩, ?_⟩
        · exact (bounds other member).2 index rfl
        · intro other member
          rcases List.mem_cons.mp member with rfl | member
          · exact ⟨inRange, exceeds⟩
          · obtain ⟨otherInRange, exceedsIndex⟩ := bounds other member
            exact ⟨otherInRange, fun earlier isLast =>
              Nat.lt_trans (exceeds earlier isLast) (exceedsIndex index rfl)⟩
      · exact ih cutLater

/-- The pieces are made of lines of the text. -/
theorem mem_of_cutLines (cut : cutLines count lastKept lines = .ok pieces) :
    (∀ line ∈ pieces.first, line ∈ lines) ∧
      ∀ piece ∈ pieces.rest, ∀ line ∈ piece.2, line ∈ lines := by
  induction lines generalizing lastKept pieces with
  | nil =>
      obtain rfl : ⟨[], []⟩ = pieces := by simpa [cutLines] using cut
      simp
  | cons line lines ih =>
      rcases cutLines_cons cut with
        ⟨later, -, cutLater, rfl⟩ | ⟨index, later, -, -, -, cutLater, rfl⟩ | ⟨-, -, -, cutLater⟩
      · obtain ⟨inFirst, inRest⟩ := ih cutLater
        refine ⟨fun other member => ?_, fun piece isPiece other member =>
          List.mem_cons_of_mem line (inRest piece isPiece other member)⟩
        rcases List.mem_cons.mp member with rfl | member
        · exact List.mem_cons_self
        · exact List.mem_cons_of_mem line (inFirst other member)
      · obtain ⟨inFirst, inRest⟩ := ih cutLater
        refine ⟨fun other member => (nomatch member), fun piece isPiece other member => ?_⟩
        rcases List.mem_cons.mp isPiece with rfl | isPiece
        · exact List.mem_cons_of_mem line (inFirst other member)
        · exact List.mem_cons_of_mem line (inRest piece isPiece other member)
      · obtain ⟨inFirst, inRest⟩ := ih cutLater
        exact ⟨fun other member => List.mem_cons_of_mem line (inFirst other member),
          fun piece isPiece other member =>
            List.mem_cons_of_mem line (inRest piece isPiece other member)⟩

end Cutting

/-! ### Writing -/

/-- What a place holds after a piece is written there: the lines of the piece, one a paragraph. -/
theorem fillPlace_of_endNoSection {paragraphs : List Paragraph} (noEnd : EndNoSection paragraphs)
    {lines : List Text} (writable : ∀ line ∈ lines, IsWritable line) :
    ∃ written : List Paragraph, fillPlace paragraphs lines = .ok (written.map .paragraph) ∧
      (written.map fun paragraph => BodyContent.line paragraph.text) = linesAt paragraphs lines ∧
      Text.unlines (written.map (·.text)) = Text.unlines lines := by
  -- at a place with paragraphs, or for a piece that is not blank, every line gets a paragraph
  have fill {place : List Paragraph} (filled : place ≠ []) (noEndPlace : EndNoSection place)
      (spread : fillPlace paragraphs lines = (do return (← writeLines place lines).map .paragraph))
      (visible : ¬(paragraphs = [] ∧ lines = [[]])) :
      ∃ written : List Paragraph, fillPlace paragraphs lines = .ok (written.map .paragraph) ∧
        (written.map fun paragraph => BodyContent.line paragraph.text) = linesAt paragraphs lines ∧
        Text.unlines (written.map (·.text)) = Text.unlines lines := by
    obtain ⟨written, write, holds⟩ := writeLines_of_endNoSection filled noEndPlace writable
    refine ⟨written, ?_, ?_, congrArg Text.unlines holds⟩
    · rw [spread, write]
      rfl
    · rw [linesAt, if_neg visible, ← holds, List.map_map]
      rfl
  by_cases filled : paragraphs = []
  · subst filled
    by_cases blank : lines = [] ∨ lines = [[]]
    · refine ⟨[], ?_, ?_, ?_⟩ <;> rcases blank with rfl | rfl <;> rfl
    · have newPlace : fillPlace [] lines =
          (do return (← writeLines [{ runs := [] }] lines).map .paragraph) := by
        simp [fillPlace, not_or.mp blank]
      exact fill (List.cons_ne_nil _ _) (by simp [EndNoSection]) newPlace fun both => blank (.inr both.2)
  · have oldPlace : fillPlace paragraphs lines =
        (do return (← writeLines paragraphs lines).map .paragraph) := by
      simp [fillPlace, filled]
    exact fill filled noEnd oldPlace fun both => filled both.1

namespace BodyLayout

theorem rows_ofBody_paragraphs (paragraphs : List Paragraph) :
    (ofBody (paragraphs.map .paragraph)).rows = [paragraphs] := by
  induction paragraphs with
  | nil => rfl
  | cons paragraph paragraphs ih =>
      obtain ⟨sameFirst, sameRest⟩ := List.cons.inj ih
      simp only [List.map_cons, ofBody, rows, sameFirst, sameRest]

theorem rows_ofBody_append_table (paragraphs : List Paragraph) (table : Table)
    (items : List BodyItem) :
    (ofBody (paragraphs.map .paragraph ++ .table table :: items)).rows =
      paragraphs :: (ofBody items).rows := by
  induction paragraphs with
  | nil => rfl
  | cons paragraph paragraphs ih =>
      obtain ⟨sameFirst, sameRest⟩ := List.cons.inj ih
      simp only [List.map_cons, List.cons_append, ofBody, rows, sameFirst, sameRest]

/-- No paragraph of a body without section breaks ends a section. -/
theorem endNoSection_of_mem_rows {body : List BodyItem} (noEnds : Document.sectionEnds body = [])
    {paragraphs : List Paragraph} (isRow : paragraphs ∈ (ofBody body).rows) :
    EndNoSection paragraphs := by
  induction body generalizing paragraphs with
  | nil =>
      obtain rfl : paragraphs = [] := by simpa [ofBody, rows] using isRow
      simp [EndNoSection]
  | cons item items ih =>
      cases item with
      | paragraph paragraph =>
          have endsNone : paragraph.sectionEnd = none ∧ Document.sectionEnds items = [] := by
            cases own : paragraph.sectionEnd <;> simp_all [Document.sectionEnds]
          rcases List.mem_cons.mp isRow with rfl | isLater
          · intro other member
            rcases List.mem_cons.mp member with rfl | member
            · exact endsNone.1
            · exact ih endsNone.2 List.mem_cons_self other member
          · exact ih endsNone.2 (List.mem_cons_of_mem _ isLater)
      | table table =>
          have endsNone : Document.sectionEnds items = [] := noEnds
          rcases List.mem_cons.mp isRow with rfl | isLater
          · exact fun other member => nomatch member
          · exact ih endsNone isLater

section Rows

variable {layout : BodyLayout} {index : Nat} {table : Table} {after : List Paragraph}
  {rest : List (Table × List Paragraph)}

/-- The rows up to a table that is passed over take in the row after it. -/
theorem paragraphsFrom_succ (reached : layout.rest.drop index = (table, after) :: rest)
    {first : Nat} (within : first ≤ index + 1) :
    layout.paragraphsFrom first (index + 1) = layout.paragraphsFrom first index ++ after := by
  have inRange : index < layout.rest.length := by
    by_contra beyond
    rw [List.drop_of_length_le (Nat.le_of_not_lt beyond)] at reached
    exact List.cons_ne_nil _ _ reached.symm
  have row : layout.rows[index + 1]? = some after := by
    have entry : layout.rest[index]? = some (table, after) := by
      rw [← List.head?_drop, reached, List.head?_cons]
    simp [rows, entry]
  have fits : first ≤ (layout.rows.take (index + 1)).length := by
    simp only [rows, List.length_take, List.length_cons, List.length_map]
    omega
  rw [paragraphsFrom, List.take_add_one, row, List.drop_append_of_le_length fits]
  simp [paragraphsFrom]

theorem paragraphsFrom_self_succ (layout : BodyLayout) (index : Nat) :
    layout.paragraphsFrom (index + 1) index = [] := by
  rw [paragraphsFrom, List.drop_eq_nil_of_le (List.length_take_le ..), List.flatten_nil]

end Rows

end BodyLayout

@[simp] theorem contents_append (body more : List BodyItem) :
    contents (body ++ more) = contents body ++ contents more := List.map_append

theorem contents_paragraphs (paragraphs : List Paragraph) :
    contents (paragraphs.map .paragraph) =
      paragraphs.map fun paragraph => BodyContent.line paragraph.text := List.map_map ..

/-- The pieces that are left are written between the tables that are left.  The invariant is that
`paragraphs` are those from the row `first` to the table at `index`. -/
theorem writePieces_of_endNoSection {layout : BodyLayout}
    (noEnds : ∀ paragraphs ∈ layout.rows, EndNoSection paragraphs) {first index : Nat}
    (within : first ≤ index) {rest : List (Table × List Paragraph)}
    (reached : layout.rest.drop index = rest) (inLayout : index + rest.length = layout.tableCount)
    {lines : List Text} {pieces : List (Nat × List Text)}
    (increasing : (pieces.map (·.1)).Pairwise (· < ·))
    (bounds : ∀ kept ∈ pieces.map (·.1), index ≤ kept ∧ kept < layout.tableCount)
    (writable : ∀ line ∈ lines, IsWritable line)
    (writablePieces : ∀ piece ∈ pieces, ∀ line ∈ piece.2, IsWritable line) :
    ∃ written, writePieces index (layout.paragraphsFrom first index) lines pieces rest = .ok written ∧
      contents written = contentsFrom layout first lines pieces ∧
      textsBetweenTables written = (lines :: pieces.map (·.2)).map Text.unlines := by
  have noEnd (first index : Nat) : EndNoSection (layout.paragraphsFrom first index) := by
    intro paragraph member
    obtain ⟨row, isRow, inRow⟩ := List.mem_flatten.mp member
    exact noEnds row (List.mem_of_mem_take (List.mem_of_mem_drop isRow)) paragraph inRow
  induction rest generalizing first index lines pieces with
  | nil =>
      have atEnd : index = layout.tableCount := inLayout
      have noPiece : pieces = [] := by
        by_contra some
        obtain ⟨piece, more, rfl⟩ := List.exists_cons_of_ne_nil some
        have := bounds piece.1 (by simp)
        omega
      subst noPiece
      obtain ⟨written, filled, shown, text⟩ := fillPlace_of_endNoSection (noEnd first index) writable
      refine ⟨written.map .paragraph, ?_, ?_, ?_⟩
      · rw [writePieces, filled]
      · rw [contents_paragraphs, shown, contentsFrom, atEnd]
      · simp [textsBetweenTables, BodyLayout.rows_ofBody_paragraphs, text]
  | cons entry rest ih =>
      obtain ⟨table, after⟩ := entry
      have later : layout.rest.drop (index + 1) = rest := by
        rw [← List.drop_drop, reached, List.drop_one, List.tail_cons]
      have laterCount : index + 1 + rest.length = layout.tableCount := by
        rw [← inLayout, List.length_cons]
        omega
      cases pieces with
      | nil =>
          rw [writePieces, ← BodyLayout.paragraphsFrom_succ reached (by omega)]
          exact ih (by omega) later laterCount increasing (by simp) writable writablePieces
      | cons piece more =>
          obtain ⟨kept, next⟩ := piece
          by_cases here : kept = index
          · subst here
            obtain ⟨place, filled, shown, text⟩ :=
              fillPlace_of_endNoSection (noEnd first kept) writable
            have exceeds : ∀ other ∈ more.map (·.1), kept < other :=
              (List.pairwise_cons.mp increasing).1
            obtain ⟨written, write, shownLater, textLater⟩ :=
              ih (Nat.le_refl (kept + 1)) later laterCount
                (List.pairwise_cons.mp increasing).2
                (fun other member => ⟨exceeds other member,
                  (bounds other (List.mem_cons_of_mem kept member)).2⟩)
                (writablePieces (kept, next) List.mem_cons_self)
                (fun other member => writablePieces other (List.mem_cons_of_mem _ member))
            have afterIt : layout.paragraphsFrom (kept + 1) (kept + 1) = after := by
              rw [BodyLayout.paragraphsFrom_succ reached (Nat.le_refl _),
                BodyLayout.paragraphsFrom_self_succ, List.nil_append]
            have isTable : layout.tables[kept]? = some table := by
              have entry : layout.rest[kept]? = some (table, after) := by
                rw [← List.head?_drop, reached, List.head?_cons]
              simp [BodyLayout.tables, entry]
            rw [afterIt] at write
            refine ⟨place.map .paragraph ++ .table table :: written, ?_, ?_, ?_⟩
            · rw [writePieces, if_pos rfl, filled, write]
              rfl
            · rw [contents_append, contents_paragraphs, shown, contentsFrom, isTable, ← shownLater]
              rfl
            · rw [textsBetweenTables, BodyLayout.rows_ofBody_append_table, List.map_cons, text]
              exact congrArg _ textLater
          · rw [writePieces, if_neg here, ← BodyLayout.paragraphsFrom_succ reached (by omega)]
            refine ih (by omega) later laterCount increasing (fun other member => ?_) writable
              writablePieces
            have ownBounds := bounds kept (by simp)
            rcases List.mem_cons.mp member with rfl | isLater
            · exact ⟨by omega, ownBounds.2⟩
            · have exceeds : kept < other := (List.pairwise_cons.mp increasing).1 other isLater
              exact ⟨by omega, (bounds other member).2⟩

/-! ### A cut that returns -/

theorem digits_of_markerDigits? {line digits : Text} (found : markerDigits? line = some digits) :
    digits.all isDigit ∧ digits ≠ [] := by
  unfold markerDigits? at found
  split at found
  · rename_i c rest trimmed
    simp only [Option.ite_none_right_eq_some, Bool.and_eq_true, Bool.not_eq_true',
      List.isEmpty_eq_false_iff, Option.some.injEq] at found
    obtain ⟨⟨⟨-, nonempty⟩, -⟩, rfl⟩ := found
    exact ⟨List.all_eq_true.mpr fun d member => List.mem_takeWhile_imp member, nonempty⟩
  · cases found

/-- An index of at most as many digits as an integer may have is read. -/
theorem markerIndex?_returns {line : Text}
    (short : ∀ digits ∈ markerDigits? line, digits.length ≤ maxIntegerDigits) :
    ∃ index, markerIndex? line = .ok index := by
  rw [markerIndex?]
  cases found : markerDigits? line with
  | none => exact ⟨none, rfl⟩
  | some digits =>
      obtain ⟨row, nonempty⟩ := digits_of_markerDigits? found
      have read := readInteger_of_digits row nonempty (short digits found)
      exact ⟨_, by simp only [Value.integerOfText, read]; rfl⟩

theorem cutLines_returns {lines : List Text}
    (short : ∀ line ∈ lines, ∀ digits ∈ markerDigits? line, digits.length ≤ maxIntegerDigits)
    (count : Nat) (lastKept : Option Nat) : ∃ pieces, cutLines count lastKept lines = .ok pieces := by
  induction lines generalizing lastKept with
  | nil => exact ⟨_, rfl⟩
  | cons line lines ih =>
      have shortLater := fun other member => short other (List.mem_cons_of_mem line member)
      obtain ⟨found, read⟩ := markerIndex?_returns (short line List.mem_cons_self)
      rw [cutLines, read, Outcome.ok_bind]
      cases found with
      | none =>
          obtain ⟨pieces, cut⟩ := ih shortLater lastKept
          exact ⟨{ pieces with first := line :: pieces.first }, by simp only [cut]; rfl⟩
      | some index =>
          obtain ⟨pieces, cut⟩ := ih shortLater (some index)
          dsimp only
          split
          · exact ⟨⟨[], (index, pieces.first) :: pieces.rest⟩, by rw [cut]; rfl⟩
          · exact ih shortLater lastKept

/-- A heading, two tables with a paragraph between them, and a closing line. -/
def reportBody : List BodyItem :=
  [.paragraph { runs := [{ text := "Heading" }] }, .table [[.content [[]] 1]],
    .paragraph { runs := [{ text := "Between" }] }, .table [[.continued]],
    .paragraph { runs := [{ text := "Closing" }] }]

/-- More lines than before around the second table, whose marker alone is left. -/
def reportText : Text := Text.unlines ["First", "Second", [], marker 1, "End"]

end Covenant.Word
