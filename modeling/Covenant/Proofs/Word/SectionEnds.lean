import Covenant.Proofs.Word.Kept

/-!
# Section ends in written text

A paragraph of the body may end a section.  When text is written back, such a paragraph stays even
if there is no line for it, so no end is lost and all of them keep their order among the tables.  But
lines for which there are no paragraphs go into copies of the last one, and a copy of a paragraph that
ends a section ends one as well.  So the ends are those of before exactly when no place that ends with
such a paragraph has more lines than paragraphs.
-/

namespace Covenant.Word

/-- What stands in a body besides text: the end of a section, or a table. -/
inductive Landmark where
  | sectionEnd (ended : Section)
  | table (table : Table)

def Paragraph.landmarks (paragraph : Paragraph) : List Landmark :=
  paragraph.sectionEnd.toList.map .sectionEnd

def BodyItem.landmarks : BodyItem → List Landmark
  | .paragraph own => own.landmarks
  | .table own => [.table own]

def landmarks (body : List BodyItem) : List Landmark := body.flatMap BodyItem.landmarks

/-- The landmarks of a body whose tables are counted from an index on, with the tables that are kept. -/
def landmarksKeeping (kept : List Nat) : Nat → List BodyItem → List Landmark
  | _, [] => []
  | index, .paragraph paragraph :: items =>
      paragraph.landmarks ++ landmarksKeeping kept index items
  | index, .table table :: items =>
      (if index ∈ kept then [.table table] else []) ++ landmarksKeeping kept (index + 1) items

/-- Paragraphs at a place, and the lines that are to be written there. -/
abbrev Place := List Paragraph × List Text

/-- The section ends that are copied at a place: that of the last paragraph, for every line too many. -/
def copiedEnds (place : Place) : List Landmark :=
  (List.replicate (place.2.length - place.1.length)
    (place.1.getLast?.toList.flatMap Paragraph.landmarks)).flatten

/-- No section end is copied: the paragraphs are as many as the lines, or the last ends no section. -/
def Place.Fits (place : Place) : Prop :=
  place.2.length ≤ place.1.length ∨ ∀ last ∈ place.1.getLast?, last.sectionEnd = none

/-- The places of pieces between the tables that are kept, from the row `first` on. -/
def placesFrom (layout : BodyLayout) : Nat → List Text → List (Nat × List Text) → List Place
  | first, lines, [] => [(layout.paragraphsFrom first layout.tableCount, lines)]
  | first, lines, (kept, next) :: more =>
      (layout.paragraphsFrom first kept, lines) :: placesFrom layout (kept + 1) next more

def BodyPieces.places (pieces : BodyPieces) (layout : BodyLayout) : List Place :=
  placesFrom layout 0 pieces.first pieces.rest

/-! ### Writing lines -/

section Lines

variable {paragraph result : Paragraph} {paragraphs results : List Paragraph} {text : Text}
  {lines : List Text}

theorem Paragraph.landmarks_setText (set : paragraph.setText text = .ok result) :
    result.landmarks = paragraph.landmarks := by
  obtain ⟨runs, -, same⟩ := Outcome.bind_eq_ok_iff.mp set
  obtain rfl := Except.ok.inj same
  rfl

theorem Paragraph.landmarks_updateText (update : paragraph.updateText text = .ok result) :
    result.landmarks = paragraph.landmarks := by
  obtain ⟨runs, -, same⟩ := Outcome.bind_eq_ok_iff.mp update
  obtain rfl := Except.ok.inj same
  rfl

/-- A paragraph without a line stays if it ends a section. -/
theorem landmarks_emptied (write : emptied paragraphs = .ok results) :
    results.flatMap Paragraph.landmarks = paragraphs.flatMap Paragraph.landmarks := by
  induction paragraphs generalizing results with
  | nil =>
      obtain rfl := Except.ok.inj write
      rfl
  | cons paragraph paragraphs ih =>
      rw [emptied] at write
      split at write
      · obtain ⟨own, isSet, write⟩ := Outcome.bind_eq_ok_iff.mp write
        obtain ⟨rest, isRest, same⟩ := Outcome.bind_eq_ok_iff.mp write
        obtain rfl := Except.ok.inj same
        rw [List.flatMap_cons, List.flatMap_cons, Paragraph.landmarks_setText isSet, ih isRest]
      · rename_i noEnd
        have nothing : paragraph.landmarks = [] := by
          rw [Paragraph.landmarks, Option.not_isSome_iff_eq_none.mp noEnd]
          rfl
        rw [List.flatMap_cons, nothing, List.nil_append, ih write]

theorem landmarks_copies (write : (lines.mapM fun line => paragraph.setText line) = .ok results) :
    results.flatMap Paragraph.landmarks = (List.replicate lines.length paragraph.landmarks).flatten := by
  have each := Outcome.mapM_eq_ok_iff.mp write
  clear write
  induction each with
  | nil => rfl
  | cons set _ ih =>
      rw [List.flatMap_cons, Paragraph.landmarks_setText set, ih, List.length_cons, List.replicate_succ,
        List.flatten_cons]

/-- Lines are written between the landmarks of the paragraphs; behind them come the ends that are
copied. -/
theorem landmarks_writeLines (write : writeLines paragraphs lines = .ok results) :
    results.flatMap Paragraph.landmarks =
      paragraphs.flatMap Paragraph.landmarks ++ copiedEnds (paragraphs, lines) := by
  fun_induction writeLines paragraphs lines generalizing results with
  | case1 lines =>
      obtain rfl := Except.ok.inj write
      simp [copiedEnds]
  | case2 paragraphs filled => simp [copiedEnds, landmarks_emptied write]
  | case3 paragraph line more =>
      obtain ⟨updated, isUpdated, write⟩ := Outcome.bind_eq_ok_iff.mp write
      obtain ⟨copies, areCopies, same⟩ := Outcome.bind_eq_ok_iff.mp write
      obtain rfl := Except.ok.inj same
      have own := Paragraph.landmarks_updateText isUpdated
      rw [List.flatMap_cons, landmarks_copies areCopies, own]
      simp [copiedEnds]
  | case4 paragraph next rest line lines ih =>
      obtain ⟨updated, isUpdated, write⟩ := Outcome.bind_eq_ok_iff.mp write
      obtain ⟨others, areOthers, same⟩ := Outcome.bind_eq_ok_iff.mp write
      obtain rfl := Except.ok.inj same
      have copied : copiedEnds (paragraph :: next :: rest, line :: lines) =
          copiedEnds (next :: rest, lines) := by
        simp [copiedEnds, Nat.add_sub_add_right]
      rw [List.flatMap_cons, Paragraph.landmarks_updateText isUpdated, ih areOthers, copied,
        ← List.append_assoc, ← List.flatMap_cons]

theorem landmarks_paragraphs (paragraphs : List Paragraph) :
    landmarks (paragraphs.map .paragraph) = paragraphs.flatMap Paragraph.landmarks :=
  List.flatMap_map ..

theorem landmarks_fillPlace {placed : List BodyItem} (fill : fillPlace paragraphs lines = .ok placed) :
    landmarks placed = paragraphs.flatMap Paragraph.landmarks ++ copiedEnds (paragraphs, lines) := by
  obtain ⟨results, write, same⟩ := Outcome.bind_eq_ok_iff.mp fill
  obtain rfl := Except.ok.inj same
  rw [landmarks_paragraphs, landmarks_writeLines write]
  split
  · -- a new paragraph ends no section, nor do its copies
    rename_i isNew
    have none : paragraphs = [] := by simp_all
    simp [none, copiedEnds, Paragraph.landmarks]
  · rfl

end Lines

/-! ### Writing pieces -/

section Pieces

variable {layout : BodyLayout} {first index : Nat} {kept others : List Nat}

/-- The landmarks behind a place, where the next table has the given index. -/
def landmarksBehind (kept : List Nat) : Nat → List (Table × List Paragraph) → List Landmark
  | _, [] => []
  | index, (table, after) :: rest =>
      (if index ∈ kept then [.table table] else []) ++
        (after.flatMap Paragraph.landmarks ++ landmarksBehind kept (index + 1) rest)

theorem landmarksKeeping_eq (kept : List Nat) (index : Nat) (body : List BodyItem) :
    landmarksKeeping kept index body =
      (BodyLayout.ofBody body).first.flatMap Paragraph.landmarks ++
        landmarksBehind kept index (BodyLayout.ofBody body).rest := by
  induction body generalizing index with
  | nil => rfl
  | cons item items ih =>
      cases item with
      | paragraph paragraph =>
          rw [landmarksKeeping, ih, BodyLayout.ofBody, List.flatMap_cons, List.append_assoc]
      | table table =>
          rw [landmarksKeeping, ih, BodyLayout.ofBody]
          rfl

/-- Only tables that are still to come count. -/
theorem landmarksBehind_congr (same : ∀ other ≥ index, other ∈ kept ↔ other ∈ others)
    (rest : List (Table × List Paragraph)) :
    landmarksBehind kept index rest = landmarksBehind others index rest := by
  induction rest generalizing index with
  | nil => rfl
  | cons entry rest ih =>
      obtain ⟨table, after⟩ := entry
      rw [landmarksBehind, landmarksBehind, ih fun other later => same other (Nat.le_of_succ_le later)]
      simp only [same index (Nat.le_refl index)]

theorem landmarks_append_table (before later : List BodyItem) (table : Table) :
    landmarks (before ++ .table table :: later) = landmarks before ++ .table table :: landmarks later := by
  rw [landmarks, List.flatMap_append, List.flatMap_cons]
  rfl

/-- The old landmarks are there in their order, and copies among them. -/
structure HasCopies (old copied written : List Landmark) : Prop where
  inOrder : old.Sublist written
  perm : written.Perm (old ++ copied)

namespace HasCopies

variable {old copied written oldLater copiedLater writtenLater : List Landmark}

theorem none (old : List Landmark) : HasCopies old [] old :=
  ⟨.refl old, by rw [List.append_nil]⟩

theorem atEnd (old copied : List Landmark) : HasCopies old copied (old ++ copied) :=
  ⟨List.sublist_append_left old copied, .refl _⟩

theorem append (has : HasCopies old copied written)
    (later : HasCopies oldLater copiedLater writtenLater) :
    HasCopies (old ++ oldLater) (copied ++ copiedLater) (written ++ writtenLater) where
  inOrder := has.inOrder.append later.inOrder
  perm :=
    calc (written ++ writtenLater).Perm ((old ++ copied) ++ (oldLater ++ copiedLater)) :=
          has.perm.append later.perm
      _ = old ++ (copied ++ (oldLater ++ copiedLater)) := List.append_assoc ..
      _ |>.Perm (old ++ (oldLater ++ (copied ++ copiedLater))) :=
          (List.perm_append_comm_assoc ..).append_left old
      _ = (old ++ oldLater) ++ (copied ++ copiedLater) := (List.append_assoc ..).symm

theorem eq_iff (has : HasCopies old copied written) : written = old ↔ copied = [] := by
  have length := has.perm.length_eq
  rw [List.length_append] at length
  constructor
  · rintro rfl
    exact List.eq_nil_of_length_eq_zero (by omega)
  · rintro rfl
    exact (has.inOrder.eq_of_length (by simpa using length.symm)).symm

end HasCopies

/-- What is written has the landmarks that were there, and those that are copied.  The invariant is
that the paragraphs are those from the row `first` to the table at `index`. -/
theorem hasCopies_writePieces (within : first ≤ index) {rest : List (Table × List Paragraph)}
    (reached : layout.rest.drop index = rest) (inLayout : index + rest.length = layout.tableCount)
    {lines : List Text} {pieces : List (Nat × List Text)}
    (increasing : (pieces.map (·.1)).Pairwise (· < ·))
    (bounds : ∀ kept ∈ pieces.map (·.1), index ≤ kept ∧ kept < layout.tableCount)
    {written : List BodyItem}
    (write : writePieces index (layout.paragraphsFrom first index) lines pieces rest = .ok written) :
    HasCopies
      ((layout.paragraphsFrom first index).flatMap Paragraph.landmarks ++
        landmarksBehind (pieces.map (·.1)) index rest)
      ((placesFrom layout first lines pieces).flatMap copiedEnds) (landmarks written) := by
  induction rest generalizing first index lines pieces written with
  | nil =>
      have atEnd : index = layout.tableCount := inLayout
      have noPiece : pieces = [] := by
        by_contra some
        obtain ⟨piece, more, rfl⟩ := List.exists_cons_of_ne_nil some
        have := bounds piece.1 (by simp)
        omega
      subst noPiece
      rw [writePieces] at write
      rw [landmarks_fillPlace write, landmarksBehind, List.append_nil, placesFrom, ← atEnd,
        List.flatMap_singleton]
      exact .atEnd _ _
  | cons entry rest ih =>
      obtain ⟨table, after⟩ := entry
      have later : layout.rest.drop (index + 1) = rest := by
        rw [← List.drop_drop, reached, List.drop_one, List.tail_cons]
      have laterCount : index + 1 + rest.length = layout.tableCount := by
        rw [← inLayout, List.length_cons]
        omega
      -- the rows on both sides of a table that is taken out are one place
      have passedOver (notKept : index ∉ pieces.map (·.1)) :
          (layout.paragraphsFrom first index).flatMap Paragraph.landmarks ++
              landmarksBehind (pieces.map (·.1)) index ((table, after) :: rest) =
            (layout.paragraphsFrom first (index + 1)).flatMap Paragraph.landmarks ++
              landmarksBehind (pieces.map (·.1)) (index + 1) rest := by
        rw [BodyLayout.paragraphsFrom_succ reached (by omega), List.flatMap_append, landmarksBehind,
          if_neg notKept, List.nil_append, List.append_assoc]
      cases pieces with
      | nil =>
          rw [writePieces, ← BodyLayout.paragraphsFrom_succ reached (by omega)] at write
          rw [passedOver (by simp)]
          exact ih (by omega) later laterCount increasing (by simp) write
      | cons piece more =>
          obtain ⟨kept, next⟩ := piece
          obtain ⟨exceeds, increasingLater⟩ := List.pairwise_cons.mp increasing
          by_cases here : kept = index
          · subst here
            rw [writePieces, if_pos rfl] at write
            obtain ⟨place, isPlace, write⟩ := Outcome.bind_eq_ok_iff.mp write
            obtain ⟨others, areOthers, same⟩ := Outcome.bind_eq_ok_iff.mp write
            obtain rfl := Except.ok.inj same
            have afterIt : layout.paragraphsFrom (kept + 1) (kept + 1) = after := by
              rw [BodyLayout.paragraphsFrom_succ reached (Nat.le_refl _),
                BodyLayout.paragraphsFrom_self_succ, List.nil_append]
            rw [← afterIt] at areOthers
            have behind := ih (Nat.le_refl (kept + 1)) later laterCount increasingLater
              (fun other member => ⟨exceeds other member,
                (bounds other (List.mem_cons_of_mem kept member)).2⟩) areOthers
            have onlyLater : landmarksBehind (kept :: more.map (·.1)) (kept + 1) rest =
                landmarksBehind (more.map (·.1)) (kept + 1) rest := by
              refine landmarksBehind_congr (fun other isLater => ?_) rest
              rw [List.mem_cons, or_iff_right (show ¬ other = kept by omega)]
            rw [landmarks_append_table, landmarks_fillPlace isPlace, placesFrom, List.flatMap_cons,
              List.map_cons, landmarksBehind, if_pos List.mem_cons_self, onlyLater, ← afterIt]
            exact (HasCopies.atEnd _ _).append ((HasCopies.none [.table table]).append behind)
          · rw [writePieces, if_neg here, ← BodyLayout.paragraphsFrom_succ reached (by omega)] at write
            have ownBounds := bounds kept (by simp)
            have least : ∀ other ∈ kept :: more.map (·.1),
                index + 1 ≤ other ∧ other < layout.tableCount := by
              intro other member
              rcases List.mem_cons.mp member with rfl | isLater
              · exact ⟨by omega, ownBounds.2⟩
              · have isGreater : kept < other := exceeds other isLater
                exact ⟨by omega, (bounds other member).2⟩
            rw [passedOver fun member => by have := (least index member).1; omega]
            exact ih (by omega) later laterCount increasing least write

/-- No end is copied at a place where the paragraphs suffice, or where the last one ends no section. -/
theorem copiedEnds_eq_nil_iff (place : Place) : copiedEnds place = [] ↔ place.Fits := by
  obtain ⟨paragraphs, lines⟩ := place
  rw [copiedEnds, Place.Fits, List.flatten_eq_nil_iff, List.forall_mem_replicate,
    Nat.sub_eq_zero_iff_le]
  refine or_congr_right ?_
  cases paragraphs.getLast? with
  | none => simp
  | some last => simp [Paragraph.landmarks]

end Pieces

/-- **A section end is lost nowhere, and copied where lines have to go into copies of it.**  A text that
paragraphs can hold is written unless the number of a marker is too long.  What is written has every
section end of before, in the old order among the tables that are kept, and besides the copies of
those at the end of a place.  So the ends are those of before exactly when at every place the
paragraphs suffice for the lines or the last paragraph ends no section. -/
theorem writeBody_keeps_sectionEnds_iff (body : List BodyItem) (text : Text) :
    (CanBeHeld text → (∀ line ∈ Text.lines text, ∀ digits ∈ markerDigits? line,
        digits.length ≤ maxIntegerDigits) → Outcome.Returns (writeBody body text)) ∧
    ∀ written, writeBody body text = .ok written →
      ∃ pieces, cutBody (BodyLayout.ofBody body).tableCount text = .ok pieces ∧
        HasCopies (landmarksKeeping pieces.kept 0 body)
          ((pieces.places (BodyLayout.ofBody body)).flatMap copiedEnds) (landmarks written) ∧
        (landmarks written = landmarksKeeping pieces.kept 0 body ↔
          ∀ place ∈ pieces.places (BodyLayout.ofBody body), place.Fits) := by
  refine ⟨returns_writeBody, fun written write => ?_⟩
  obtain ⟨pieces, cut, write⟩ := Outcome.bind_eq_ok_iff.mp write
  obtain ⟨increasing, bounds⟩ := kept_of_cutLines cut
  have atStart : (BodyLayout.ofBody body).paragraphsFrom 0 0 = (BodyLayout.ofBody body).first := by
    simp [BodyLayout.paragraphsFrom, BodyLayout.rows]
  rw [← atStart] at write
  have has := hasCopies_writePieces (Nat.le_refl 0) List.drop_zero (Nat.zero_add _) increasing
    (fun index member => ⟨Nat.zero_le index, (bounds index member).1⟩) write
  rw [atStart, ← BodyPieces.kept, ← landmarksKeeping_eq] at has
  refine ⟨pieces, cut, has, has.eq_iff.trans ?_⟩
  simp only [List.flatMap_eq_nil_iff, copiedEnds_eq_nil_iff]
  rfl

/-- A title of two paragraphs and what follows the schedule end a section each. -/
def planBody : List BodyItem := [
  .paragraph { runs := [{ text := "Plan" }] },
  .paragraph {
    runs := [{ text := "Kinderen" }], sectionEnd := some { footer := some [[{ text := "1" }]] } },
  .table [[.content [[{ text := "maandag" }]] 1]],
  .paragraph { runs := [{ text := "Slot" }], sectionEnd := some {} }]

/-- The paragraph that ends the title has no line, and stays. -/
theorem writeBody_keeps_sectionEnds_iff_planBody :
    let text : Text := "Ouderschapsplan\n" ++ (marker 0 ++ "\nEinde")
    CanBeHeld text ∧
      (∀ line ∈ Text.lines text, ∀ digits ∈ markerDigits? line, digits.length ≤ maxIntegerDigits) ∧
      ∃ written, writeBody planBody text = .ok written ∧ landmarks written = landmarks planBody := by
  intro text
  have held : CanBeHeld text := by decide
  have short : ∀ line ∈ Text.lines text, ∀ digits ∈ markerDigits? line,
      digits.length ≤ maxIntegerDigits := by
    decide
  obtain ⟨returns, keeps⟩ := writeBody_keeps_sectionEnds_iff planBody text
  obtain ⟨written, isWritten⟩ := returns held short
  obtain ⟨pieces, cut, -, same_iff⟩ := keeps written isWritten
  have isCut : cutBody 1 text = .ok ⟨["Ouderschapsplan"], [(0, ["Einde"])]⟩ := rfl
  obtain rfl := Except.ok.inj (cut.symm.trans isCut)
  refine ⟨held, short, written, isWritten, same_iff.mpr fun place member => .inl ?_⟩
  simp only [BodyPieces.places, placesFrom, List.mem_cons, List.not_mem_nil, or_false] at member
  rcases member with rfl | rfl <;> decide

/-- A title page that is a section of its own. -/
def titlePage : List BodyItem := [.paragraph { runs := [{ text := "Plan" }], sectionEnd := some {} }]

/-- A second line on the title page makes it two sections. -/
theorem sectionEnd_copied : ∃ written, writeBody titlePage "Plan\nKinderen" = .ok written ∧
    Document.sectionEnds titlePage = [{}] ∧ Document.sectionEnds written = [{}, {}] :=
  ⟨_, rfl, rfl, rfl⟩

end Covenant.Word
