import Covenant.Proofs.Word.Body

/-!
# What is written into paragraphs

A paragraph that is written gets one of the lines, in which a carriage return becomes a line feed, or
no text.  So there are never more characters of a kind in what is written than in the lines, if the
two line breaks are alike for that kind.
-/

namespace Covenant.Word

section Counts

variable {kind : Char → Bool} {text : Text} {paragraph result : Paragraph} {paragraphs results : List Paragraph}
  {lines : List Text}

theorem countP_heldText (alike : kind '\r' = kind '\n') {held : Text} (isHeld : heldText text = .ok held) :
    held.countP kind = text.countP kind := by
  rw [heldText] at isHeld
  split at isHeld
  · cases isHeld
  · obtain rfl := Except.ok.inj isHeld
    rw [List.countP_map]
    refine List.countP_congr fun c _ => ?_
    by_cases isReturn : c = '\r'
    · simp [isReturn, alike]
    · simp [isReturn]

theorem countP_setText (alike : kind '\r' = kind '\n') {runs written : List Run}
    (set : setText text runs = .ok written) : (textOfRuns written).countP kind = text.countP kind := by
  obtain ⟨held, isHeld, set⟩ := Outcome.bind_eq_ok_iff.mp set
  rw [← countP_heldText alike isHeld]
  cases runs with
  | nil =>
      obtain rfl := Except.ok.inj set
      simp [textOfRuns]
  | cons first rest =>
      obtain rfl := Except.ok.inj set
      simp [textOfRuns]

theorem Paragraph.countP_setText (alike : kind '\r' = kind '\n') (set : paragraph.setText text = .ok result) :
    result.text.countP kind = text.countP kind := by
  obtain ⟨runs, isSet, same⟩ := Outcome.bind_eq_ok_iff.mp set
  obtain rfl := Except.ok.inj same
  exact Word.countP_setText alike isSet

theorem Paragraph.countP_updateText (alike : kind '\r' = kind '\n')
    (update : paragraph.updateText text = .ok result) : result.text.countP kind = text.countP kind := by
  obtain ⟨runs, isUpdated, same⟩ := Outcome.bind_eq_ok_iff.mp update
  obtain rfl := Except.ok.inj same
  rw [Word.updateText] at isUpdated
  split at isUpdated
  · rename_i isText
    obtain rfl := Except.ok.inj isUpdated
    exact congrArg (List.countP kind) isText
  · exact Word.countP_setText alike isUpdated

/-- The text of paragraphs one after the other. -/
def joinedText (paragraphs : List Paragraph) : Text := paragraphs.flatMap (·.text)

theorem countP_joinedText_cons (paragraph : Paragraph) (paragraphs : List Paragraph) :
    (joinedText (paragraph :: paragraphs)).countP kind =
      paragraph.text.countP kind + (joinedText paragraphs).countP kind := by
  rw [joinedText, List.flatMap_cons, List.countP_append, joinedText]

theorem countP_flatten_cons (line : Text) (lines : List Text) :
    (line :: lines).flatten.countP kind = line.countP kind + lines.flatten.countP kind := by
  rw [List.flatten_cons, List.countP_append]

theorem countP_copies (alike : kind '\r' = kind '\n')
    (write : (lines.mapM fun line => paragraph.setText line) = .ok results) :
    (joinedText results).countP kind = lines.flatten.countP kind := by
  have each := Outcome.mapM_eq_ok_iff.mp write
  clear write
  induction each with
  | nil => rfl
  | cons set _ ih => rw [countP_joinedText_cons, countP_flatten_cons, Paragraph.countP_setText alike set, ih]

theorem countP_emptied (alike : kind '\r' = kind '\n') (write : emptied paragraphs = .ok results) :
    (joinedText results).countP kind = 0 := by
  induction paragraphs generalizing results with
  | nil =>
      obtain rfl := Except.ok.inj write
      rfl
  | cons paragraph paragraphs ih =>
      rw [emptied] at write
      split at write
      · obtain ⟨own, isSet, write⟩ := Outcome.bind_eq_ok_iff.mp write
        obtain ⟨rest, isRest, same⟩ := Outcome.bind_eq_ok_iff.mp write
        obtain rfl := Except.ok.inj same
        rw [countP_joinedText_cons, Paragraph.countP_setText alike isSet, ih isRest]
        rfl
      · exact ih write

theorem countP_writeLines_le (alike : kind '\r' = kind '\n') (write : writeLines paragraphs lines = .ok results) :
    (joinedText results).countP kind ≤ lines.flatten.countP kind := by
  fun_induction writeLines paragraphs lines generalizing results with
  | case1 lines =>
      obtain rfl := Except.ok.inj write
      exact Nat.zero_le _
  | case2 paragraphs filled => exact Nat.le_trans (Nat.le_of_eq (countP_emptied alike write)) (Nat.zero_le _)
  | case3 paragraph line more =>
      obtain ⟨updated, isUpdated, write⟩ := Outcome.bind_eq_ok_iff.mp write
      obtain ⟨copies, areCopies, same⟩ := Outcome.bind_eq_ok_iff.mp write
      obtain rfl := Except.ok.inj same
      rw [countP_joinedText_cons, countP_flatten_cons, Paragraph.countP_updateText alike isUpdated,
        countP_copies alike areCopies]
  | case4 paragraph next rest line lines ih =>
      obtain ⟨updated, isUpdated, write⟩ := Outcome.bind_eq_ok_iff.mp write
      obtain ⟨others, areOthers, same⟩ := Outcome.bind_eq_ok_iff.mp write
      obtain rfl := Except.ok.inj same
      rw [countP_joinedText_cons, countP_flatten_cons, Paragraph.countP_updateText alike isUpdated]
      exact Nat.add_le_add_left (ih areOthers) _

theorem countP_writeText_le (alike : kind '\r' = kind '\n') {held written : List Line}
    (write : writeText held text = .ok written) :
    (written.map textOfRuns).flatten.countP kind ≤ (Text.lines text).flatten.countP kind := by
  obtain ⟨results, isWritten, same⟩ := Outcome.bind_eq_ok_iff.mp write
  obtain rfl := Except.ok.inj same
  rw [List.map_map, ← List.flatMap_def]
  exact countP_writeLines_le alike isWritten

end Counts

/-! ### Bodies -/

/-- The line of an item in the text of the body; the marker of a table is not one of them. -/
def BodyItem.line? : BodyItem → Option Text
  | .paragraph own => some own.text
  | .table _ => none

/-- The text of the paragraphs of a body one after the other. -/
def textOfItems (items : List BodyItem) : Text := (items.filterMap BodyItem.line?).flatten

section Bodies

variable {kind : Char → Bool} {items : List BodyItem} {lines : List Text}

theorem textOfItems_append (first second : List BodyItem) :
    textOfItems (first ++ second) = textOfItems first ++ textOfItems second := by
  rw [textOfItems, List.filterMap_append, List.flatten_append, textOfItems, textOfItems]

theorem textOfItems_paragraphs (paragraphs : List Paragraph) :
    textOfItems (paragraphs.map .paragraph) = joinedText paragraphs := by
  induction paragraphs with
  | nil => rfl
  | cons paragraph paragraphs ih => exact congrArg (paragraph.text ++ ·) ih

theorem countP_fillPlace_le (alike : kind '\r' = kind '\n') {paragraphs : List Paragraph}
    (fill : fillPlace paragraphs lines = .ok items) :
    (textOfItems items).countP kind ≤ lines.flatten.countP kind := by
  obtain ⟨results, isWritten, same⟩ := Outcome.bind_eq_ok_iff.mp fill
  obtain rfl := Except.ok.inj same
  rw [textOfItems_paragraphs]
  exact countP_writeLines_le alike isWritten

theorem countP_writePieces_le (alike : kind '\r' = kind '\n') {index : Nat} {paragraphs : List Paragraph}
    {pieces : List (Nat × List Text)} {rest : List (Table × List Paragraph)}
    (write : writePieces index paragraphs lines pieces rest = .ok items) :
    (textOfItems items).countP kind ≤
      lines.flatten.countP kind + (pieces.flatMap (·.2)).flatten.countP kind := by
  fun_induction writePieces index paragraphs lines pieces rest generalizing items with
  | case1 index paragraphs lines pieces =>
      exact Nat.le_trans (countP_fillPlace_le alike write) (Nat.le_add_right _ _)
  | case2 index paragraphs lines table after rest ih => exact ih write
  | case3 paragraphs lines table after rest index next more ih =>
      obtain ⟨before, isBefore, write⟩ := Outcome.bind_eq_ok_iff.mp write
      obtain ⟨later, isLater, same⟩ := Outcome.bind_eq_ok_iff.mp write
      obtain rfl := Except.ok.inj same
      have own := countP_fillPlace_le alike isBefore
      have others := ih isLater
      have noLine : textOfItems (.table table :: later) = textOfItems later := rfl
      rw [textOfItems_append, noLine, List.countP_append, List.flatMap_cons, List.flatten_append,
        List.countP_append]
      exact Nat.add_le_add own others
  | case4 index paragraphs lines table after rest kept next more isOther ih => exact ih write

theorem countP_cutLines_le {count : Nat} {lastKept : Option Nat} {pieces : BodyPieces}
    (cut : cutLines count lastKept lines = .ok pieces) :
    pieces.first.flatten.countP kind + (pieces.rest.flatMap (·.2)).flatten.countP kind ≤
      lines.flatten.countP kind := by
  induction lines generalizing lastKept pieces with
  | nil =>
      obtain rfl : ⟨[], []⟩ = pieces := by simpa [cutLines] using cut
      rfl
  | cons line lines ih =>
      rw [countP_flatten_cons]
      rcases cutLines_cons cut with
        ⟨later, -, cutLater, rfl⟩ | ⟨index, later, -, -, -, cutLater, rfl⟩ | ⟨-, -, -, cutLater⟩
      · rw [countP_flatten_cons, Nat.add_assoc]
        exact Nat.add_le_add_left (ih cutLater) _
      · have others := ih cutLater
        rw [List.flatMap_cons, List.flatten_append, List.countP_append, List.flatten_nil, List.countP_nil,
          Nat.zero_add]
        exact Nat.le_add_left_of_le others
      · exact Nat.le_add_left_of_le (ih cutLater)

/-- A body does not get more characters of a kind than are in the lines written into it. -/
theorem countP_writeBody_le (alike : kind '\r' = kind '\n') {body : List BodyItem} {text : Text}
    (write : writeBody body text = .ok items) :
    (textOfItems items).countP kind ≤ (Text.lines text).flatten.countP kind := by
  obtain ⟨pieces, isCut, isWritten⟩ := Outcome.bind_eq_ok_iff.mp write
  exact Nat.le_trans (countP_writePieces_le alike isWritten) (countP_cutLines_le isCut)

end Bodies

end Covenant.Word
