import Covenant.Proofs.Text.Blank
import Covenant.Proofs.Text.Pieces

/-!
# Lines around a place

A place in a text divides one of its lines: what stands in front of it on that line is the last line
of the text before the place, and what stands behind it the first line of the text after it.  All
other lines are lines of the text before or of the text after.
-/

namespace Covenant.Text

def firstLine (text : Text) : Text := text.takeWhile (· ≠ '\n')

def lastLine (text : Text) : Text := text.rtakeWhile (· ≠ '\n')

variable {text first second : Text}

theorem mem_of_mem_lines {line : Text} (isLine : line ∈ lines text) {c : Char} (member : c ∈ line) :
    c ∈ text := mem_of_mem_splitAt isLine member

theorem lines_append_break (first second : Text) :
    lines (first ++ '\n' :: second) = lines first ++ lines second :=
  splitAt_append_separator '\n' first second

theorem lines_of_noBreak (noBreak : '\n' ∉ text) : lines text = [text] := splitAt_of_not_mem noBreak

theorem noBreak_of_mem_lines {line : Text} (isLine : line ∈ lines text) : '\n' ∉ line :=
  separator_not_mem_of_mem_splitAt isLine

/-- Lines without breaks are the lines of the text that they make up. -/
theorem lines_unlines {pieces : List Text} (filled : pieces ≠ []) (noBreaks : ∀ piece ∈ pieces, '\n' ∉ piece) :
    lines (unlines pieces) = pieces := splitAt_joinWith filled noBreaks

/-- A text is one line, or its last line follows a break. -/
theorem lastLine_spec (text : Text) : '\n' ∉ lastLine text ∧
    (lastLine text = text ∨ ∃ front, text = front ++ '\n' :: lastLine text) := by
  induction text using List.reverseRecOn with
  | nil => exact ⟨List.not_mem_nil, .inl rfl⟩
  | append_singleton text c ih =>
      obtain ⟨noBreak, isLast⟩ := ih
      by_cases isBreak : c = '\n'
      · subst isBreak
        have atEnd : lastLine (text ++ ['\n']) = [] := List.rtakeWhile_concat_neg _ _ _ (by simp)
        rw [atEnd]
        exact ⟨List.not_mem_nil, .inr ⟨text, rfl⟩⟩
      · have longer : lastLine (text ++ [c]) = lastLine text ++ [c] :=
          List.rtakeWhile_concat_pos _ _ _ (by simpa using isBreak)
        rw [longer]
        refine ⟨by simp [noBreak, Ne.symm isBreak], ?_⟩
        rcases isLast with whole | ⟨front, isText⟩
        · exact .inl (congrArg (· ++ [c]) whole)
        · refine .inr ⟨front, ?_⟩
          conv_lhs => rw [isText]
          simp

/-- A text is one line, or a break follows its first line. -/
theorem firstLine_spec (text : Text) : '\n' ∉ firstLine text ∧
    (firstLine text = text ∨ ∃ rest, text = firstLine text ++ '\n' :: rest) := by
  refine ⟨fun isBreak => by simpa using List.mem_takeWhile_imp isBreak, ?_⟩
  have whole : firstLine text ++ text.dropWhile (· ≠ '\n') = text := List.takeWhile_append_dropWhile
  cases isRest : text.dropWhile (· ≠ '\n') with
  | nil =>
      rw [isRest, List.append_nil] at whole
      exact .inl whole
  | cons c rest =>
      have stops := List.head?_dropWhile_not (· ≠ '\n') text
      rw [isRest] at stops whole
      obtain rfl : c = '\n' := by simpa using stops
      exact .inr ⟨rest, whole.symm⟩

theorem lines_eq_append_lastLine (text : Text) :
    lines text = (lines text).dropLast ++ [lastLine text] := by
  obtain ⟨noBreak, whole | ⟨front, isText⟩⟩ := lastLine_spec text
  · rw [whole] at noBreak ⊢
    rw [lines_of_noBreak noBreak]
    rfl
  · have isLines : lines text = lines front ++ [lastLine text] := by
      conv_lhs => rw [isText]
      rw [lines_append_break, lines_of_noBreak noBreak]
    rw [isLines, List.dropLast_concat]

theorem lines_eq_firstLine_cons (text : Text) : lines text = firstLine text :: (lines text).tail := by
  obtain ⟨noBreak, whole | ⟨rest, isText⟩⟩ := firstLine_spec text
  · rw [whole] at noBreak ⊢
    rw [lines_of_noBreak noBreak]
    rfl
  · have isLines : lines text = firstLine text :: lines rest := by
      conv_lhs => rw [isText]
      rw [lines_append_break, lines_of_noBreak noBreak]
      rfl
    rw [isLines, List.tail_cons]

/-- The lines of two texts put together: the last line of the first and the first line of the second
become one. -/
theorem lines_append (first second : Text) :
    lines (first ++ second) =
      (lines first).dropLast ++ (lastLine first ++ firstLine second) :: (lines second).tail := by
  have middle : lines (lastLine first ++ second) =
      (lastLine first ++ firstLine second) :: (lines second).tail := by
    have noBreak := (lastLine_spec first).1
    obtain ⟨noBreakFirst, whole | ⟨rest, isText⟩⟩ := firstLine_spec second
    · rw [whole] at noBreakFirst ⊢
      rw [lines_of_noBreak (by simp [noBreak, noBreakFirst]), lines_of_noBreak noBreakFirst]
      rfl
    · have isTail : (lines second).tail = lines rest := by
        rw [isText, lines_append_break, lines_of_noBreak noBreakFirst]
        rfl
      rw [isTail]
      conv_lhs => rw [isText]
      rw [← List.append_assoc, lines_append_break, lines_of_noBreak (by simp [noBreak, noBreakFirst])]
      rfl
  obtain ⟨noBreak, whole | ⟨front, isText⟩⟩ := lastLine_spec first
  · rw [whole] at noBreak middle ⊢
    rw [middle, lines_of_noBreak noBreak]
    rfl
  · have inFront : (lines first).dropLast = lines front := by
      rw [isText, lines_append_break, lines_of_noBreak noBreak, List.dropLast_concat]
    rw [inFront]
    conv_lhs => rw [isText]
    rw [List.append_assoc, List.cons_append, lines_append_break, middle]

/-! ### Characters of the first and the last line -/

theorem firstLine_append (first second : Text) :
    firstLine (first ++ second) =
      if '\n' ∈ first then firstLine first else first ++ firstLine second := by
  induction first with
  | nil => rfl
  | cons c first ih =>
      by_cases isBreak : c = '\n'
      · subst isBreak
        simp [firstLine]
      · have later (text : Text) : firstLine (c :: text) = c :: firstLine text := by
          simp [firstLine, isBreak]
        rw [List.cons_append, later, later, ih]
        split <;> simp_all [Ne.symm isBreak]

theorem lastLine_append (first second : Text) :
    lastLine (first ++ second) =
      if '\n' ∈ second then lastLine second else lastLine first ++ second := by
  have mirrored (text : Text) : lastLine text = (firstLine text.reverse).reverse := rfl
  rw [mirrored, List.reverse_append, firstLine_append, mirrored, mirrored]
  split <;> simp_all

theorem firstLine_cons {c : Char} (noBreak : c ≠ '\n') (text : Text) :
    firstLine (c :: text) = c :: firstLine text := by
  simp [firstLine, noBreak]

theorem lastLine_concat (text : Text) {c : Char} (noBreak : c ≠ '\n') :
    lastLine (text ++ [c]) = lastLine text ++ [c] := by
  simp [lastLine_append, Ne.symm noBreak]

theorem mem_of_mem_firstLine {c : Char} (member : c ∈ firstLine text) : c ∈ text :=
  (List.takeWhile_prefix _).subset member

theorem mem_of_mem_lastLine {c : Char} (member : c ∈ lastLine text) : c ∈ text :=
  (List.rtakeWhile_suffix _ _).subset member

theorem firstLine_of_noBreak (noBreak : '\n' ∉ text) : firstLine text = text :=
  (firstLine_spec text).2.resolve_right fun ⟨_, broken⟩ => noBreak (broken ▸ by simp)

theorem lastLine_of_noBreak (noBreak : '\n' ∉ text) : lastLine text = text :=
  (lastLine_spec text).2.resolve_right fun ⟨_, broken⟩ => noBreak (broken ▸ by simp)

theorem mem_firstLine_append {c : Char} (member : c ∈ firstLine (first ++ second)) :
    c ∈ firstLine first ∨ c ∈ firstLine second := by
  rw [firstLine_append] at member
  split at member
  · exact .inl member
  · rename_i noBreak
    rw [firstLine_of_noBreak noBreak]
    exact List.mem_append.mp member

theorem mem_lastLine_append {c : Char} (member : c ∈ lastLine (first ++ second)) :
    c ∈ lastLine first ∨ c ∈ lastLine second := by
  rw [lastLine_append] at member
  split at member
  · exact .inr member
  · rename_i noBreak
    rw [lastLine_of_noBreak noBreak]
    exact List.mem_append.mp member

theorem mem_firstLine_append_of_left {c : Char} (member : c ∈ firstLine first) :
    c ∈ firstLine (first ++ second) := by
  rw [firstLine_append]
  split
  · exact member
  · exact List.mem_append_left _ (mem_of_mem_firstLine member)

theorem mem_lastLine_append_of_right {c : Char} (member : c ∈ lastLine second) :
    c ∈ lastLine (first ++ second) := by
  rw [lastLine_append]
  split
  · exact member
  · exact List.mem_append_right _ (mem_of_mem_lastLine member)

end Covenant.Text
