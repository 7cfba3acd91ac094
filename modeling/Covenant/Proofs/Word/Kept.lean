import Covenant.Proofs.Word.Body
import Covenant.Proofs.Word.Marker
import Covenant.Proofs.Word.Written

/-!
# Tables that are kept

A text whose markers stand alone on their lines is cut at all of them, and none is left in the pieces.
So the paragraphs that are written hold no character of markers.  When no marker is repeated and they
come in order, exactly the tables whose markers there are stay in the body.
-/

namespace Covenant.Word

variable {count index : Nat} {line : Text} {lines : List Text}

/-! ### Reading markers -/

theorem isDigit_of_mem_numeral {n : Nat} {c : Char} (member : c ∈ Text.ofNat n) :
    isDigit c = true := by
  simp [isDigit, digitValue?_of_isDigit (isDigit_of_mem_ofNat member)]

theorem markerDigits?_of_marker (isMarker : Text.trim line = marker index) :
    markerDigits? line = some (Text.ofNat index) := by
  have whole : marker index = markerEdge :: (markerName ++ (Text.ofNat index ++ [markerEdge])) := by
    simp [marker]
  have digits : (Text.ofNat index ++ [markerEdge]).takeWhile isDigit = Text.ofNat index := by
    rw [List.takeWhile_append_of_pos fun c member => isDigit_of_mem_numeral member,
      List.takeWhile_cons_of_neg (by decide), List.append_nil]
  have nonempty : (Text.ofNat index).isEmpty = false := by simp [Text.ofNat]
  rw [markerDigits?, isMarker, whole]
  simp [digits, nonempty]

theorem markerDigits?_of_free (free : markerEdge ∉ line) : markerDigits? line = none := by
  by_contra found
  obtain ⟨digits, found⟩ := Option.ne_none_iff_exists'.mp found
  unfold markerDigits? at found
  split at found
  · rename_i c rest trimmed
    simp only [Option.ite_none_right_eq_some, Bool.and_eq_true, decide_eq_true_eq] at found
    obtain ⟨⟨⟨⟨rfl, -⟩, -⟩, -⟩, -⟩ := found
    exact free (Text.mem_of_mem_trim (trimmed ▸ List.mem_cons_self))
  · cases found

/-- The marker that is read from a line is that of the table on it. -/
theorem markerIndex?_eq_ok (own : IsMarkerOrFree count line) {found : Option Nat}
    (read : markerIndex? line = .ok found) : found = tableOn? count line := by
  by_cases member : markerEdge ∈ line
  · obtain ⟨index, inRange, isMarker⟩ := own member
    rw [tableOn?_eq_some_iff.mpr ⟨inRange, isMarker⟩]
    simp only [markerIndex?, markerDigits?_of_marker isMarker, Value.integerOfText,
      readInteger_ofNat] at read
    split at read
    · rename_i number isNumber
      split at isNumber
      · cases isNumber
      · obtain rfl := Except.ok.inj isNumber
        exact (Except.ok.inj read).symm
    · cases read
    · cases read
  · rw [tableOn?_of_not_mem member]
    rw [markerIndex?, markerDigits?_of_free member] at read
    exact (Except.ok.inj read).symm

theorem free_of_markerIndex? (own : IsMarkerOrFree count line) (read : markerIndex? line = .ok none) :
    markerEdge ∉ line := by
  intro member
  obtain ⟨index, inRange, isMarker⟩ := own member
  have isTable := markerIndex?_eq_ok own read
  rw [tableOn?_eq_some_iff.mpr ⟨inRange, isMarker⟩] at isTable
  cases isTable

/-! ### Cutting -/

section Cutting

variable {lastKept : Option Nat} {pieces : BodyPieces}

/-- What is cut at its markers holds no marker. -/
theorem free_of_cutLines (alone : ∀ line ∈ lines, IsMarkerOrFree count line)
    (cut : cutLines count lastKept lines = .ok pieces) :
    (∀ line ∈ pieces.first, markerEdge ∉ line) ∧
      ∀ piece ∈ pieces.rest, ∀ line ∈ piece.2, markerEdge ∉ line := by
  induction lines generalizing lastKept pieces with
  | nil =>
      obtain rfl : ⟨[], []⟩ = pieces := by simpa [cutLines] using cut
      simp
  | cons line lines ih =>
      obtain ⟨own, later⟩ := List.forall_mem_cons.mp alone
      rcases cutLines_cons cut with
        ⟨after, read, cutLater, rfl⟩ | ⟨index, after, -, -, -, cutLater, rfl⟩ | ⟨-, -, -, cutLater⟩
      · obtain ⟨first, rest⟩ := ih later cutLater
        exact ⟨List.forall_mem_cons.mpr ⟨free_of_markerIndex? own read, first⟩, rest⟩
      · obtain ⟨first, rest⟩ := ih later cutLater
        exact ⟨List.forall_mem_nil _, List.forall_mem_cons.mpr ⟨first, rest⟩⟩
      · exact ih later cutLater

/-- Markers that come in order are all kept. -/
theorem kept_eq_of_cutLines (alone : ∀ line ∈ lines, IsMarkerOrFree count line)
    (increasing : (lines.filterMap (tableOn? count)).Pairwise (· < ·))
    (exceeds : ∀ index ∈ lines.filterMap (tableOn? count), ∀ earlier ∈ lastKept, earlier < index)
    (cut : cutLines count lastKept lines = .ok pieces) :
    pieces.kept = lines.filterMap (tableOn? count) := by
  induction lines generalizing lastKept pieces with
  | nil =>
      obtain rfl : ⟨[], []⟩ = pieces := by simpa [cutLines] using cut
      rfl
  | cons line lines ih =>
      obtain ⟨own, later⟩ := List.forall_mem_cons.mp alone
      rcases cutLines_cons cut with
        ⟨after, read, cutLater, rfl⟩ | ⟨index, after, read, inRange, -, cutLater, rfl⟩ |
        ⟨index, read, refused, -⟩
      · have noTable := markerIndex?_eq_ok own read
        rw [List.filterMap_cons, ← noTable] at increasing exceeds ⊢
        exact (show after.kept = _ from ih later increasing exceeds cutLater)
      · have isTable := markerIndex?_eq_ok own read
        rw [List.filterMap_cons, ← isTable] at increasing ⊢
        obtain ⟨least, increasingLater⟩ := List.pairwise_cons.mp increasing
        have keptLater := ih later increasingLater
          (fun other member earlier isLast => Option.mem_some.mp isLast ▸ least other member) cutLater
        rw [← keptLater]
        rfl
      · have isTable := markerIndex?_eq_ok own read
        rw [List.filterMap_cons, ← isTable] at exceeds
        have inRange := (tableOn?_eq_some_iff.mp isTable.symm).1
        exact absurd ⟨inRange, exceeds index List.mem_cons_self⟩ refused

end Cutting

/-! ### Writing -/

section Writing

/-- No paragraph holds the character of markers. -/
def AreFree (paragraphs : List Paragraph) : Prop := ∀ paragraph ∈ paragraphs, markerEdge ∉ paragraph.text

theorem areFree_of_writeLines {paragraphs results : List Paragraph}
    (free : ∀ line ∈ lines, markerEdge ∉ line) (write : writeLines paragraphs lines = .ok results) :
    AreFree results := by
  intro result member inResult
  have fewer := @countP_writeLines_le (· == markerEdge) paragraphs results lines (by decide) write
  have noneInLines : lines.flatten.count markerEdge = 0 := by
    refine List.count_eq_zero.mpr fun inLines => ?_
    obtain ⟨line, isLine, inLine⟩ := List.mem_flatten.mp inLines
    exact free line isLine inLine
  have noneWritten : (joinedText results).count markerEdge = 0 := Nat.le_zero.mp (noneInLines ▸ fewer)
  exact List.count_eq_zero.mp noneWritten (List.mem_flatMap.mpr ⟨result, member, inResult⟩)

/-- What is written at a place are paragraphs without the character of markers. -/
theorem exists_of_fillPlace {paragraphs : List Paragraph} {placed : List BodyItem}
    (free : ∀ line ∈ lines, markerEdge ∉ line) (fill : fillPlace paragraphs lines = .ok placed) :
    ∃ results, placed = results.map .paragraph ∧ AreFree results := by
  obtain ⟨results, write, same⟩ := Outcome.bind_eq_ok_iff.mp fill
  exact ⟨results, (Except.ok.inj same).symm, areFree_of_writeLines free write⟩

theorem tables_ofBody_append (body more : List BodyItem) :
    (BodyLayout.ofBody (body ++ more)).tables =
      (BodyLayout.ofBody body).tables ++ (BodyLayout.ofBody more).tables := by
  induction body with
  | nil => rfl
  | cons item body ih =>
      cases item with
      | paragraph paragraph => exact ih
      | table table => exact congrArg (table :: ·) ih

theorem tables_ofBody_paragraphs (paragraphs : List Paragraph) :
    (BodyLayout.ofBody (paragraphs.map .paragraph)).tables = [] := by
  induction paragraphs with
  | nil => rfl
  | cons paragraph paragraphs ih => exact ih

/-- What is written: paragraphs without the character of markers, and these tables. -/
structure HoldsTables (body : List BodyItem) (tables : List Table) : Prop where
  paragraphs : ∀ paragraph, .paragraph paragraph ∈ body → markerEdge ∉ paragraph.text
  tables : (BodyLayout.ofBody body).tables = tables

namespace HoldsTables

variable {results : List Paragraph}

theorem of_areFree (areFree : AreFree results) : HoldsTables (results.map .paragraph) [] where
  paragraphs paragraph member := by
    obtain ⟨own, isOwn, same⟩ := List.mem_map.mp member
    cases same
    exact areFree _ isOwn
  tables := tables_ofBody_paragraphs results

theorem append_table {body : List BodyItem} {tables : List Table} (areFree : AreFree results)
    (table : Table) (later : HoldsTables body tables) :
    HoldsTables (results.map .paragraph ++ .table table :: body) (table :: tables) where
  paragraphs paragraph member := by
    rcases List.mem_append.mp member with inFront | behind
    · exact (of_areFree areFree).paragraphs paragraph inFront
    · rcases List.mem_cons.mp behind with isTable | isLater
      · cases isTable
      · exact later.paragraphs paragraph isLater
  tables := by
    rw [tables_ofBody_append, tables_ofBody_paragraphs, ← later.tables]
    rfl

end HoldsTables

/-- The tables of the pieces are written, and paragraphs without the character of markers. -/
theorem tables_of_writePieces {layout : BodyLayout} {index : Nat} {paragraphs : List Paragraph}
    {rest : List (Table × List Paragraph)} {pieces : List (Nat × List Text)}
    (reached : layout.rest.drop index = rest)
    (increasing : (pieces.map (·.1)).Pairwise (· < ·))
    (bounds : ∀ kept ∈ pieces.map (·.1), index ≤ kept ∧ kept < layout.tableCount)
    (free : ∀ line ∈ lines, markerEdge ∉ line)
    (freePieces : ∀ piece ∈ pieces, ∀ line ∈ piece.2, markerEdge ∉ line) {body : List BodyItem}
    (write : writePieces index paragraphs lines pieces rest = .ok body) :
    HoldsTables body ((pieces.map (·.1)).filterMap (layout.tables[·]?)) := by
  induction rest generalizing index paragraphs lines pieces body with
  | nil =>
      have atEnd : layout.tableCount ≤ index := List.drop_eq_nil_iff.mp reached
      have noPiece : pieces = [] := by
        by_contra some
        obtain ⟨piece, more, rfl⟩ := List.exists_cons_of_ne_nil some
        have := bounds piece.1 (by simp)
        omega
      subst noPiece
      rw [writePieces] at write
      obtain ⟨results, rfl, areFree⟩ := exists_of_fillPlace free write
      exact .of_areFree areFree
  | cons entry rest ih =>
      obtain ⟨table, after⟩ := entry
      have later : layout.rest.drop (index + 1) = rest := by
        rw [← List.drop_drop, reached, List.drop_one, List.tail_cons]
      cases pieces with
      | nil =>
          rw [writePieces] at write
          exact ih later increasing (by simp) free freePieces write
      | cons piece more =>
          obtain ⟨kept, next⟩ := piece
          obtain ⟨least, increasingLater⟩ := List.pairwise_cons.mp increasing
          have ownBounds : index ≤ kept ∧ kept < layout.tableCount := bounds kept List.mem_cons_self
          have boundsMore : ∀ other ∈ more.map (·.1), kept + 1 ≤ other ∧ other < layout.tableCount :=
            fun other member => ⟨least other member, (bounds other (List.mem_cons_of_mem kept member)).2⟩
          rw [writePieces] at write
          split at write
          · rename_i here
            subst here
            obtain ⟨place, isPlace, write⟩ := Outcome.bind_eq_ok_iff.mp write
            obtain ⟨written, isWritten, same⟩ := Outcome.bind_eq_ok_iff.mp write
            obtain rfl := Except.ok.inj same
            obtain ⟨results, rfl, areFree⟩ := exists_of_fillPlace free isPlace
            obtain ⟨freeNext, freeMore⟩ := List.forall_mem_cons.mp freePieces
            have isTable : layout.tables[kept]? = some table := by
              have entry : layout.rest[kept]? = some (table, after) := by
                rw [← List.head?_drop, reached, List.head?_cons]
              simp [BodyLayout.tables, entry]
            rw [List.map_cons, List.filterMap_cons, isTable]
            exact .append_table areFree table
              (ih later increasingLater boundsMore freeNext freeMore isWritten)
          · rename_i elsewhere
            refine ih later increasing (fun other member => ?_) free freePieces write
            rcases List.mem_cons.mp member with isKept | isLater
            · obtain rfl : other = kept := isKept
              exact ⟨by omega, ownBounds.2⟩
            · have exceeds := boundsMore other isLater
              exact ⟨by omega, exceeds.2⟩

end Writing

/-! ### Writing that succeeds -/

/-- A text without characters that no paragraph can hold. -/
def CanBeHeld (text : Text) : Prop := ∀ c ∈ text, isUnwritable c = false

instance : DecidablePred CanBeHeld := fun text =>
  List.decidableBAll (fun c => isUnwritable c = false) text

theorem returns_setText {text : Text} (canBeHeld : CanBeHeld text) (runs : List Run) :
    Outcome.Returns (setText text runs) := by
  have noControl : text.any isUnwritable = false := List.any_eq_false.mpr fun c member => by
    simp [canBeHeld c member]
  have held : Outcome.Returns (heldText text) := by
    rw [heldText, noControl]
    exact Outcome.returns_ok _
  refine held.bind fun _ _ => ?_
  cases runs with
  | nil => exact Outcome.returns_ok _
  | cons first rest => exact Outcome.returns_ok _

namespace Paragraph

variable {text : Text} (canBeHeld : CanBeHeld text) (paragraph : Paragraph)
include canBeHeld

theorem returns_setText : Outcome.Returns (paragraph.setText text) :=
  (Word.returns_setText canBeHeld paragraph.runs).bind fun _ _ => Outcome.returns_ok _

theorem returns_updateText : Outcome.Returns (paragraph.updateText text) := by
  refine Outcome.Returns.bind ?_ fun _ _ => Outcome.returns_ok _
  rw [Word.updateText]
  split
  · exact Outcome.returns_ok _
  · exact Word.returns_setText canBeHeld paragraph.runs

end Paragraph

theorem returns_emptied (paragraphs : List Paragraph) : Outcome.Returns (emptied paragraphs) := by
  induction paragraphs with
  | nil => exact Outcome.returns_ok _
  | cons paragraph paragraphs ih =>
      rw [emptied]
      split
      · exact (Paragraph.returns_setText (List.forall_mem_nil _) paragraph).bind fun _ _ =>
          ih.bind fun _ _ => Outcome.returns_ok _
      · exact ih

theorem returns_writeLines (paragraphs : List Paragraph) (canBeHeld : ∀ line ∈ lines, CanBeHeld line) :
    Outcome.Returns (writeLines paragraphs lines) := by
  fun_induction writeLines paragraphs lines with
  | case1 lines => exact Outcome.returns_ok _
  | case2 paragraphs filled => exact returns_emptied paragraphs
  | case3 paragraph line more =>
      obtain ⟨own, later⟩ := List.forall_mem_cons.mp canBeHeld
      refine (Paragraph.returns_updateText own paragraph).bind fun updated _ => ?_
      refine (Outcome.returns_mapM_iff.mpr fun other isLine => ?_).bind fun _ _ => Outcome.returns_ok _
      exact Paragraph.returns_setText (later other isLine) updated
  | case4 paragraph next rest line lines ih =>
      obtain ⟨own, later⟩ := List.forall_mem_cons.mp canBeHeld
      exact (Paragraph.returns_updateText own paragraph).bind fun _ _ =>
        (ih later).bind fun _ _ => Outcome.returns_ok _

theorem returns_fillPlace (paragraphs : List Paragraph) (canBeHeld : ∀ line ∈ lines, CanBeHeld line) :
    Outcome.Returns (fillPlace paragraphs lines) :=
  (returns_writeLines _ canBeHeld).bind fun _ _ => Outcome.returns_ok _

theorem returns_writePieces {pieces : List (Nat × List Text)}
    (canBeHeld : ∀ line ∈ lines, CanBeHeld line)
    (piecesCanBeHeld : ∀ piece ∈ pieces, ∀ line ∈ piece.2, CanBeHeld line) (index : Nat)
    (paragraphs : List Paragraph) (rest : List (Table × List Paragraph)) :
    Outcome.Returns (writePieces index paragraphs lines pieces rest) := by
  induction rest generalizing index paragraphs lines pieces with
  | nil => exact returns_fillPlace _ canBeHeld
  | cons entry rest ih =>
      obtain ⟨table, after⟩ := entry
      cases pieces with
      | nil => exact ih canBeHeld piecesCanBeHeld _ _
      | cons piece more =>
          obtain ⟨nextCanBeHeld, moreCanBeHeld⟩ := List.forall_mem_cons.mp piecesCanBeHeld
          rw [writePieces]
          split
          · exact (returns_fillPlace _ canBeHeld).bind fun _ _ =>
              (ih nextCanBeHeld moreCanBeHeld _ _).bind fun _ _ => Outcome.returns_ok _
          · exact ih canBeHeld piecesCanBeHeld _ _

/-- A text that paragraphs can hold can be written when the numbers of its markers can be read. -/
theorem returns_writeBody {body : List BodyItem} {text : Text} (canBeHeld : CanBeHeld text)
    (short : ∀ line ∈ Text.lines text, ∀ digits ∈ markerDigits? line, digits.length ≤ maxIntegerDigits) :
    Outcome.Returns (writeBody body text) := by
  have lineCanBeHeld : ∀ line ∈ Text.lines text, CanBeHeld line :=
    fun line isLine c member => canBeHeld c (Text.mem_of_mem_lines isLine member)
  refine Outcome.Returns.bind (cutLines_returns short _ none) fun pieces cut => ?_
  obtain ⟨fromFirst, fromRest⟩ := mem_of_cutLines cut
  exact returns_writePieces (fun line member => lineCanBeHeld line (fromFirst line member))
    (fun piece isPiece line member => lineCanBeHeld line (fromRest piece isPiece line member)) _ _ _

/-- Markers alone on their lines can be read when the numbers of tables can. -/
theorem returns_writeBody_of_markersAlone {body : List BodyItem} {text : Text}
    (alone : MarkersAlone (BodyLayout.ofBody body).tableCount text) (canBeHeld : CanBeHeld text)
    (short : ∀ table < (BodyLayout.ofBody body).tableCount,
      (Text.ofNat table).length ≤ maxIntegerDigits) :
    Outcome.Returns (writeBody body text) := by
  refine returns_writeBody canBeHeld fun line isLine digits found => ?_
  have member : markerEdge ∈ line := by
    by_contra free
    rw [markerDigits?_of_free free] at found
    cases found
  obtain ⟨index, inRange, isMarker⟩ := alone line isLine member
  rw [markerDigits?_of_marker isMarker] at found
  obtain rfl := Option.some.inj found
  exact short index inRange

/-- **Markers alone on their lines give their tables back.**  No paragraph that is written holds the
character of markers, and when no marker is repeated and they come in order, the tables written are
those of the markers. -/
theorem writeBody_of_markersAlone {body written : List BodyItem} {text : Text}
    (alone : MarkersAlone (BodyLayout.ofBody body).tableCount text)
    (write : writeBody body text = .ok written) :
    (∀ paragraph, .paragraph paragraph ∈ written → markerEdge ∉ paragraph.text) ∧
      ((tablesIn (BodyLayout.ofBody body).tableCount text).Pairwise (· < ·) →
        (BodyLayout.ofBody written).tables =
          (tablesIn (BodyLayout.ofBody body).tableCount text).filterMap
            ((BodyLayout.ofBody body).tables[·]?)) := by
  obtain ⟨pieces, cut, write⟩ := Outcome.bind_eq_ok_iff.mp write
  obtain ⟨increasing, bounds⟩ := kept_of_cutLines cut
  obtain ⟨free, freePieces⟩ := free_of_cutLines alone cut
  obtain ⟨freeParagraphs, tables⟩ := tables_of_writePieces List.drop_zero increasing
    (fun index member => ⟨Nat.zero_le index, (bounds index member).1⟩) free freePieces write
  refine ⟨freeParagraphs, fun inOrder => ?_⟩
  have kept := kept_eq_of_cutLines alone inOrder (by simp) cut
  rw [tables]
  exact congrArg (List.filterMap _) kept

end Covenant.Word
