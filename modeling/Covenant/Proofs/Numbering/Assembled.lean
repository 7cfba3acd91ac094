import Covenant.Proofs.Numbering.Contents
import Covenant.Proofs.Numbering.Continuation

/-!
# Numbered articles

The clauses of a document are put together with a marker in front of every title that is numbered,
and the numbering pass counts these markers.  When titles and bodies have no markers of their own,
the pass has one marker for every heading with a number, and between two of them it changes nothing.
The counters in front of a block can then be told from the clauses in front of it.
-/

namespace Covenant.NumberingMarker

/-- No two opening brackets stand in a row. -/
def FreeOfOpenings (text : Text) : Prop := ¬ ['[', '['] <:+: text

instance : DecidablePred FreeOfOpenings := fun text =>
  inferInstanceAs (Decidable (¬ ['[', '['] <:+: text))

/-- The marker of a heading that goes on with an article. -/
def subarticleMark : Text := "[[SUBARTICLE]]"

section Free

variable {before : Option Char} {text : Text}

theorem FreeOfOpenings.of_cons {c : Char} (free : FreeOfOpenings (c :: text)) : FreeOfOpenings text :=
  fun within => free (within.trans (List.suffix_cons c text).isInfix)

theorem FreeOfOpenings.cons {c : Char} (noOpening : c ≠ '[') (free : FreeOfOpenings text) :
    FreeOfOpenings (c :: text) := by
  intro within
  rcases List.infix_cons_iff.mp within with ⟨behind, atStart⟩ | inText
  · exact noOpening (List.cons.inj atStart).1.symm
  · exact free inText

/-- A character that is no opening bracket keeps two texts apart. -/
theorem FreeOfOpenings.append_cons {first second : Text} (freeFirst : FreeOfOpenings first)
    {c : Char} (noOpening : c ≠ '[') (freeSecond : FreeOfOpenings second) :
    FreeOfOpenings (first ++ c :: second) := by
  induction first with
  | nil => exact freeSecond.cons noOpening
  | cons d first ih =>
      intro within
      rcases List.infix_cons_iff.mp within with ⟨behind, atStart⟩ | later
      · obtain ⟨rfl, atSecond⟩ := List.cons.inj atStart
        cases first with
        | nil => exact noOpening (List.cons.inj atSecond).1.symm
        | cons e first =>
            obtain ⟨rfl, -⟩ := List.cons.inj atSecond
            exact freeFirst ⟨[], first, rfl⟩
      · exact ih freeFirst.of_cons later

theorem recognise_of_free (free : FreeOfOpenings text) : recognise before text = none := by
  by_contra recognised
  obtain ⟨⟨marker, length⟩, recognised⟩ := Option.ne_none_iff_exists'.mp recognised
  obtain ⟨source, rest, taken, rfl, -⟩ := taken_of_recognise recognised
  obtain ⟨first, behind, -, rfl⟩ := taken.exists_opening
  exact free ⟨first, behind ++ rest, by simp⟩

/-- A text without openings is cut into its characters. -/
theorem cutAfter_of_free (free : FreeOfOpenings text) :
    Piece.cutAfter recognise before 0 text = text.map .plain := by
  induction text generalizing before with
  | nil => rfl
  | cons c text ih =>
      rw [cutAfter_of_unrecognised (recognise_of_free free), ih free.of_cons, List.map_cons]

theorem closesOpenings_of_free (free : FreeOfOpenings text) : ClosesOpenings text := by
  intro rest isTail opens
  exact absurd (opens.isInfix.trans ((List.mem_tails _ _).mp isTail).isInfix) free

theorem recognise_subarticleMark (rest : Text) :
    recognise before (subarticleMark ++ rest) = some (.subarticle, subarticleMark.length) := by
  have noLine : resetLine? (subarticleMark ++ rest) = none := by
    rfl
  have isMarker : bracketed? (subarticleMark ++ rest) = some (.subarticle, rest) := by
    rfl
  rw [recognise, noLine, ite_self, isMarker]
  simp

/-! ### What stands behind a block -/

/-- Text without openings in front of a text is cut into its characters, and the text behind it always
into the same pieces. -/
def CutsInto (behind : Text) (pieces : List (Piece NumberingMarker)) : Prop :=
  ∀ before text, FreeOfOpenings text →
    Piece.cutAfter recognise before 0 (text ++ behind) = text.map .plain ++ pieces

theorem cutsInto_nil : CutsInto [] [] := by
  intro before text free
  rw [List.append_nil, List.append_nil, cutAfter_of_free free]

/-- The blank line between two blocks. -/
def gap : Text := "\n\n"

theorem cutsInto_gap (next : Text) : CutsInto (gap ++ next) (gap.map .plain ++ Piece.cut recognise next) := by
  intro before text free
  have freeGap : FreeOfOpenings (text ++ gap) :=
    free.append_cons (by decide) (by decide : FreeOfOpenings ['\n'])
  have ends : (text ++ gap).getLast? = some '\n' := by
    rw [List.getLast?_append_of_ne_nil _ (by decide)]
    rfl
  have apart := not_markerAcross_of_closesOpenings ends (closesOpenings_of_free freeGap) next
  rw [← List.append_assoc, cutAfter_append_of_lineFeed before ends apart, cutAfter_of_free freeGap,
    List.map_append, List.append_assoc]

end Free

end Covenant.NumberingMarker

namespace Covenant.Numbering

open NumberingMarker

variable {state : NumberingState} {text behind : Text} {pieces : List (Piece NumberingMarker)}

theorem numberPieces_free (label : Text) (cuts : CutsInto behind pieces) (free : FreeOfOpenings text) :
    (numberPieces label state (Piece.cut recognise (text ++ behind))).1 =
      text ++ (numberPieces label state pieces).1 := by
  rw [Piece.cut, cuts none text free, numberPieces_plains]

theorem numberPieces_mark {label mark : Text} {marker : NumberingMarker} (filled : mark ≠ [])
    (recognised : ∀ rest, recognise none (mark ++ rest) = some (marker, mark.length))
    (cuts : CutsInto behind pieces) (free : FreeOfOpenings text) :
    (numberPieces label state (Piece.cut recognise (mark ++ text ++ behind))).1 =
      write label (state.after marker) marker ++ text ++
        (numberPieces label (state.after marker) pieces).1 := by
  rw [Piece.cut, List.append_assoc, cutAfter_of_recognised filled (recognised _), cuts _ text free,
    List.append_assoc]
  simp only [numberPieces, numberPieces_plains]

end Covenant.Numbering

namespace Covenant.Articles

open Covenant.Numbering NumberingMarker

/-! ### The blocks of a numbered text -/

/-- The number of articles that clauses begin. -/
def articlesIn (clauses : List RenderedClause) : Nat :=
  clauses.countP (·.clause.numbering == .newNumber)

/-- The number of clauses that go on with the last article that clauses begin. -/
def partsIn (clauses : List RenderedClause) : Nat :=
  (clauses.rtakeWhile (·.clause.numbering != .newNumber)).countP (·.clause.numbering == .continued)

/-- A title behind a number; without a title there is no space either. -/
def titleBehind (title : Text) : Text := if title = [] then [] else ' ' :: title

/-- The heading of a clause that other clauses precede. -/
def numberedHeading (label : Text) (earlier : List RenderedClause) (clause : RenderedClause) : Text :=
  match clause.clause.numbering with
  | .newNumber =>
      label ++ ' ' :: Text.ofNat (articlesIn earlier + 1) ++ titleBehind clause.title
  | .continued =>
      Text.ofNat (articlesIn earlier) ++ '.' :: Text.ofNat (partsIn earlier + 1) ++
        titleBehind clause.title
  | .unnumbered => clause.title

/-- The heading on a line of its own and the body; without a heading there is no line. -/
def numberedBlock (label : Text) (earlier : List RenderedClause) (clause : RenderedClause) : Text :=
  if numberedHeading label earlier clause = [] then clause.body
  else numberedHeading label earlier clause ++ '\n' :: clause.body

/-- The counters behind the markers of clauses. -/
def stateBehind (clauses : List RenderedClause) : NumberingState :=
  { article := articlesIn clauses, subarticle := partsIn clauses }

/-- Neither the title nor the body of a clause brings brackets of a marker into the text. -/
structure IsUnmarked (clause : RenderedClause) : Prop where
  title : FreeOfOpenings clause.title
  body : FreeOfOpenings clause.body
  trimmed : Text.trim clause.title = clause.title

section Counters

variable (earlier : List RenderedClause) {clause : RenderedClause}

theorem stateBehind_concat_newNumber (isNew : clause.clause.numbering = .newNumber) :
    stateBehind (earlier ++ [clause]) = (stateBehind earlier).after .article := by
  simp [stateBehind, NumberingState.after, articlesIn, partsIn, isNew]

theorem stateBehind_concat_continued (goesOn : clause.clause.numbering = .continued) :
    stateBehind (earlier ++ [clause]) = (stateBehind earlier).after .subarticle := by
  simp [stateBehind, NumberingState.after, articlesIn, partsIn, goesOn]

theorem stateBehind_concat_unnumbered (isPlain : clause.clause.numbering = .unnumbered) :
    stateBehind (earlier ++ [clause]) = stateBehind earlier := by
  simp [stateBehind, articlesIn, partsIn, isPlain]

end Counters

section Blocks

variable {clause : RenderedClause}

theorem trimEnd_space_cons {title : Text} (trimmed : Text.trim title = title) :
    Text.trimEnd (' ' :: title) = titleBehind title := by
  rcases List.eq_nil_or_concat' title with rfl | ⟨front, c, rfl⟩
  · rfl
  · have notBlank : isBlank c = false := by
      apply Text.isBlank_of_getLast?_trim
      rw [trimmed, List.getLast?_concat]
    rw [titleBehind, if_neg (by simp), ← List.cons_append, Text.trimEnd_append_cons _ notBlank]
    rfl

theorem titleBehind_free {title : Text} (free : FreeOfOpenings title) :
    FreeOfOpenings (titleBehind title) := by
  rw [titleBehind]
  split
  · decide
  · exact free.cons (by decide)

/-- With a mark in front the heading is never empty. -/
theorem block_of_mark (front : Text)
    (marked : headingMarker clause.clause.numbering = '[' :: front ++ [']', ' '])
    (trimmed : Text.trim clause.title = clause.title) :
    block clause = '[' :: front ++ ']' :: (titleBehind clause.title ++ '\n' :: clause.body) := by
  have isHeading : heading clause = '[' :: front ++ ']' :: titleBehind clause.title := by
    have opening : Text.trimStart (headingMarker clause.clause.numbering ++ clause.title) =
        '[' :: front ++ ']' :: ' ' :: clause.title := by
      rw [marked, List.append_assoc]
      exact Text.trimStart_of_not_blank (by decide) _
    rw [heading, Text.trim, opening, Text.trimEnd_append_cons _ (by decide), trimEnd_space_cons trimmed]
  rw [block, isHeading, if_neg (by simp), List.append_assoc, ← List.cons_append, List.cons_append]

theorem block_of_unnumbered (isPlain : clause.clause.numbering = .unnumbered)
    (trimmed : Text.trim clause.title = clause.title) :
    block clause = if clause.title = [] then clause.body else clause.title ++ '\n' :: clause.body := by
  have isHeading : heading clause = clause.title := by
    rw [heading, isPlain]
    exact trimmed
  rw [block, isHeading]
  simp only [List.isEmpty_iff]

/-- A block is numbered by the clauses in front of it, and changed nowhere else. -/
theorem numberPieces_block {label : Text} (labelled : label ≠ []) (earlier : List RenderedClause)
    (unmarked : IsUnmarked clause) {behind : Text} {pieces : List (Piece NumberingMarker)}
    (cuts : CutsInto behind pieces) :
    (numberPieces label (stateBehind earlier) (Piece.cut recognise (block clause ++ behind))).1 =
      numberedBlock label earlier clause ++
        (numberPieces label (stateBehind (earlier ++ [clause])) pieces).1 := by
  have free : FreeOfOpenings (titleBehind clause.title ++ '\n' :: clause.body) :=
    (titleBehind_free unmarked.title).append_cons (by decide) unmarked.body
  cases kind : clause.clause.numbering with
  | newNumber =>
      have isBlock : block clause = articleMark ++ (titleBehind clause.title ++ '\n' :: clause.body) :=
        block_of_mark "[ARTICLE]" (by rw [kind]; rfl) unmarked.trimmed
      rw [isBlock, stateBehind_concat_newNumber earlier kind,
        numberPieces_mark (by decide) recognise_articleMark cuts free, numberedBlock, numberedHeading,
        kind]
      simp [write, label_of_ne_nil labelled, stateBehind, NumberingState.after]
  | continued =>
      have isBlock : block clause =
          subarticleMark ++ (titleBehind clause.title ++ '\n' :: clause.body) :=
        block_of_mark "[SUBARTICLE]" (by rw [kind]; rfl) unmarked.trimmed
      rw [isBlock, stateBehind_concat_continued earlier kind,
        numberPieces_mark (by decide) recognise_subarticleMark cuts free, numberedBlock, numberedHeading,
        kind]
      simp [write, stateBehind, NumberingState.after]
  | unnumbered =>
      rw [block_of_unnumbered kind unmarked.trimmed, stateBehind_concat_unnumbered earlier kind,
        numberedBlock, numberedHeading, kind]
      refine numberPieces_free label cuts ?_
      split
      · exact unmarked.body
      · exact unmarked.title.append_cons (by decide) unmarked.body

theorem assemble_cons_cons (first second : RenderedClause) (clauses : List RenderedClause) :
    assemble (first :: second :: clauses) = block first ++ (gap ++ assemble (second :: clauses)) := by
  rw [assemble, List.map_cons, List.map_cons, Text.joinWith, List.intercalate_cons_cons,
    List.append_assoc]
  rfl

end Blocks

/-- The blocks of clauses that other clauses precede. -/
def numberedBlocks (label : Text) (earlier clauses : List RenderedClause) : List Text :=
  clauses.mapIdx fun place clause => numberedBlock label (earlier ++ clauses.take place) clause

theorem numberedBlocks_cons (label : Text) (earlier : List RenderedClause) (clause : RenderedClause)
    (clauses : List RenderedClause) :
    numberedBlocks label earlier (clause :: clauses) =
      numberedBlock label earlier clause :: numberedBlocks label (earlier ++ [clause]) clauses := by
  simp [numberedBlocks, List.mapIdx_cons]

theorem numberPieces_assemble {label : Text} (labelled : label ≠ []) (earlier : List RenderedClause)
    {clauses : List RenderedClause} (unmarked : ∀ clause ∈ clauses, IsUnmarked clause) :
    (number label (stateBehind earlier) (assemble clauses)).1 =
      Text.joinWith gap (numberedBlocks label earlier clauses) := by
  induction clauses generalizing earlier with
  | nil => rfl
  | cons clause clauses ih =>
      have own := unmarked clause List.mem_cons_self
      cases clauses with
      | nil =>
          have alone := numberPieces_block labelled earlier own cutsInto_nil
          simpa [number, assemble, numberedBlocks, Text.joinWith, numberPieces] using alone
      | cons next clauses =>
          have later := ih (earlier ++ [clause]) fun other member =>
            unmarked other (List.mem_cons_of_mem clause member)
          have first := numberPieces_block labelled earlier own
            (cutsInto_gap (assemble (next :: clauses)))
          rw [number] at later
          rw [numberPieces_plains, later] at first
          rw [assemble_cons_cons, number, first, numberedBlocks_cons label earlier,
            numberedBlocks_cons label (earlier ++ [clause]),
            Text.joinWith, Text.joinWith, List.intercalate_cons_cons, ← List.append_assoc]

/-- The clauses of a document are numbered without gaps and keep their texts: the numbered text is the
blocks of the clauses with a blank line between them, where the number of each heading counts the
clauses in front of it. -/
theorem number_assemble {label : Text} (labelled : label ≠ []) {rendered : List RenderedClause}
    (unmarked : ∀ clause ∈ rendered, IsUnmarked clause) :
    (number label .start (assemble rendered)).1 =
      Text.joinWith "\n\n" (rendered.mapIdx fun place clause =>
        numberedBlock label (rendered.take place) clause) :=
  numberPieces_assemble labelled [] unmarked

/-- A clause with a heading of some kind. -/
def clauseWith (numbering : HeadingNumbering) (title body : Text) : RenderedClause where
  clause := { partiesClause.clause with numbering }
  title
  body

/-- All kinds of headings with and without titles, and single brackets at the ends of titles and
bodies. -/
theorem number_assemble_mixed :
    let rendered : List RenderedClause :=
      [clauseWith .continued "Vooraf" "x", clauseWith .newNumber [] "een ]]", clauseWith .unnumbered "Los [" "[y",
        clauseWith .continued [] "twee\n\nregels [", clauseWith .unnumbered [] "[z]",
        clauseWith .continued "Deel" "a", clauseWith .newNumber "Slot [b]" "\nc"]
    ("Artikel" : Text) ≠ [] ∧ (∀ clause ∈ rendered, IsUnmarked clause) ∧
      (number "Artikel" .start (assemble rendered)).1 =
        Text.joinWith "\n\n" (rendered.mapIdx fun place clause =>
          numberedBlock "Artikel" (rendered.take place) clause) ∧
      (rendered.mapIdx fun place clause => numberedBlock "Artikel" (rendered.take place) clause) =
        ["0.1 Vooraf\nx".toList, "Artikel 1\neen ]]".toList, "Los [\n[y".toList,
          "1.1\ntwee\n\nregels [".toList, "[z]".toList, "1.2 Deel\na".toList,
          "Artikel 2 Slot [b]\n\nc".toList] := by
  intro rendered
  have labelled : ("Artikel" : Text) ≠ [] := by decide
  have unmarked : ∀ clause ∈ rendered, IsUnmarked clause := by
    have free : ∀ clause ∈ rendered, FreeOfOpenings clause.title ∧ FreeOfOpenings clause.body ∧
        Text.trim clause.title = clause.title := by
      decide +kernel
    intro clause member
    obtain ⟨title, body, trimmed⟩ := free clause member
    exact ⟨title, body, trimmed⟩
  exact ⟨labelled, unmarked, number_assemble labelled unmarked, by decide +kernel⟩

end Covenant.Articles
