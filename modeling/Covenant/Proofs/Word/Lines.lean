import Covenant.Proofs.Outcome
import Covenant.Proofs.Text.Lines
import Covenant.Word.Document

/-!
# Writing lines into paragraphs

Lines without control characters are held by a paragraph as they are.  Written into at least one
paragraph, and none that ends a section, lines become exactly one paragraph each: paragraphs are
dropped or copied as needed.
-/

namespace Covenant

namespace Word

/-- A text that a paragraph can hold as it is. -/
def IsWritable (text : Text) : Prop := ∀ c ∈ text, isUnwritable c = false ∧ c ≠ '\r'

instance : DecidablePred IsWritable := fun text =>
  List.decidableBAll (fun c => isUnwritable c = false ∧ c ≠ '\r') text

theorem IsWritable.nil : IsWritable [] := fun _ member => nomatch member

theorem heldText_of_isWritable {text : Text} (writable : IsWritable text) :
    heldText text = .ok text := by
  have noControl : text.any isUnwritable = false := by
    simpa using fun c member => (writable c member).1
  have unchanged : text.map (fun c => if c = '\r' then '\n' else c) = text :=
    (List.map_congr_left fun c member => if_neg (writable c member).2).trans (List.map_id text)
  rw [heldText, noControl, unchanged]
  rfl

theorem setText_of_isWritable {text : Text} (writable : IsWritable text) (runs : List Run) :
    ∃ written, setText text runs = .ok written ∧ textOfRuns written = text := by
  rw [setText, heldText_of_isWritable writable]
  cases runs with
  | nil => exact ⟨[{ text }], rfl, by simp [textOfRuns]⟩
  | cons first rest =>
      exact ⟨{ first with text } :: rest.map fun run => { run with text := [] }, rfl,
        by simp [textOfRuns]⟩

namespace Paragraph

theorem setText_of_isWritable (paragraph : Paragraph) {text : Text} (writable : IsWritable text) :
    ∃ written, paragraph.setText text = .ok written ∧ written.text = text := by
  obtain ⟨runs, set, holds⟩ := Word.setText_of_isWritable writable paragraph.runs
  exact ⟨{ paragraph with runs }, by rw [Paragraph.setText, set]; rfl, holds⟩

theorem updateText_of_isWritable (paragraph : Paragraph) {text : Text}
    (writable : IsWritable text) :
    ∃ written, paragraph.updateText text = .ok written ∧ written.text = text := by
  by_cases same : textOfRuns paragraph.runs = text
  · exact ⟨paragraph, by rw [Paragraph.updateText, Word.updateText, if_pos same]; rfl, same⟩
  · obtain ⟨runs, set, holds⟩ := Word.setText_of_isWritable writable paragraph.runs
    refine ⟨{ paragraph with runs }, ?_, holds⟩
    rw [Paragraph.updateText, Word.updateText, if_neg same, set]
    rfl

end Paragraph

/-- Paragraphs that end no section. -/
def EndNoSection (paragraphs : List Paragraph) : Prop :=
  ∀ paragraph ∈ paragraphs, paragraph.sectionEnd = none

theorem emptied_of_endNoSection {paragraphs : List Paragraph} (noEnd : EndNoSection paragraphs) :
    emptied paragraphs = .ok [] := by
  induction paragraphs with
  | nil => rfl
  | cons paragraph paragraphs ih =>
      rw [emptied, noEnd paragraph (by simp)]
      exact ih fun other member => noEnd other (by simp [member])

/-- Copies of a paragraph take one line each. -/
theorem mapM_setText_of_isWritable (paragraph : Paragraph) {lines : List Text}
    (writable : ∀ line ∈ lines, IsWritable line) :
    ∃ written, (lines.mapM fun line => paragraph.setText line) = .ok written ∧
      written.map Paragraph.text = lines := by
  induction lines with
  | nil => exact ⟨[], rfl, rfl⟩
  | cons line lines ih =>
      obtain ⟨copy, set, holds⟩ := paragraph.setText_of_isWritable (writable line (by simp))
      obtain ⟨copies, copied, copiesHold⟩ := ih fun other member => writable other (by simp [member])
      refine ⟨copy :: copies, ?_, by simp [holds, copiesHold]⟩
      rw [List.mapM_cons, set, copied]
      rfl

/-- Lines that are written into paragraphs become one paragraph each. -/
theorem writeLines_of_endNoSection {paragraphs : List Paragraph} (filled : paragraphs ≠ [])
    (noEnd : EndNoSection paragraphs) {lines : List Text}
    (writable : ∀ line ∈ lines, IsWritable line) :
    ∃ written, writeLines paragraphs lines = .ok written ∧ written.map Paragraph.text = lines := by
  induction lines generalizing paragraphs with
  | nil =>
      refine ⟨[], ?_, rfl⟩
      cases paragraphs with
      | nil => rfl
      | cons paragraph rest => exact emptied_of_endNoSection noEnd
  | cons line lines ih =>
      obtain ⟨paragraph, rest, rfl⟩ := List.exists_cons_of_ne_nil filled
      have writableRest : ∀ other ∈ lines, IsWritable other :=
        fun other member => writable other (by simp [member])
      obtain ⟨updated, update, holds⟩ :=
        paragraph.updateText_of_isWritable (writable line (by simp))
      cases rest with
      | nil =>
          obtain ⟨copies, copied, copiesHold⟩ := mapM_setText_of_isWritable updated writableRest
          refine ⟨updated :: copies, ?_, by simp [holds, copiesHold]⟩
          rw [writeLines, update]
          change (do return updated :: (← lines.mapM fun line => updated.setText line)) = _
          rw [copied]
          rfl
      | cons next rest =>
          obtain ⟨others, written, othersHold⟩ := ih (List.cons_ne_nil next rest)
            (fun other member => noEnd other (by simp [member])) writableRest
          refine ⟨updated :: others, ?_, by simp [holds, othersHold]⟩
          rw [writeLines, update]
          change (do return updated :: (← writeLines (next :: rest) lines)) = _
          rw [written]
          rfl

end Word

end Covenant
