import Covenant.Proofs.Text.Blank
import Covenant.Text.Folded

/-!
# What the readers of tags accept

Each of the small readers from which tags are recognised takes a piece off the start of a text.
The piece is described here on its own, so that it can be seen to be taken off whatever follows.
-/

namespace Covenant.Text

theorem afterOpening?_eq_some_iff {text rest : Text} :
    afterOpening? text = some rest ↔ text = '[' :: '[' :: rest := by
  constructor
  · intro read
    unfold afterOpening? at read
    split at read
    · simp_all
    · simp at read
  · rintro rfl
    rfl

theorem afterClosing?_eq_some_iff {text rest : Text} :
    afterClosing? text = some rest ↔ text = ']' :: ']' :: rest := by
  constructor
  · intro read
    unfold afterClosing? at read
    split at read
    · simp_all
    · simp at read
  · rintro rfl
    rfl

/-- Letters that spell a word in some case. -/
def Spells (word letters : Text) : Prop :=
  List.Forall₂ (fun letter c => isFormOf letter c = true) word letters

theorem Spells.exists_letter {word letters : Text} {c : Char} (spells : Spells word letters)
    (member : c ∈ letters) : ∃ letter ∈ word, isFormOf letter c = true := by
  induction spells with
  | nil => simp at member
  | cons isForm spells ih =>
      rcases List.mem_cons.mp member with rfl | later
      · exact ⟨_, by simp, isForm⟩
      · obtain ⟨letter, inWord, isForm⟩ := ih later
        exact ⟨letter, by simp [inWord], isForm⟩

theorem afterWord?_eq_some_iff {word text rest : Text} :
    afterWord? word text = some rest ↔ ∃ letters, Spells word letters ∧ text = letters ++ rest := by
  induction word generalizing text with
  | nil =>
      constructor
      · intro read
        exact ⟨[], .nil, by simpa [afterWord?] using read⟩
      · rintro ⟨letters, spells, rfl⟩
        cases spells
        rfl
  | cons letter word ih =>
      constructor
      · intro read
        cases text with
        | nil => simp [afterWord?] at read
        | cons c text =>
            rw [afterWord?] at read
            split at read
            · obtain ⟨letters, spells, rfl⟩ := ih.mp read
              exact ⟨c :: letters, .cons ‹_› spells, rfl⟩
            · simp at read
      · rintro ⟨letters, spells, rfl⟩
        cases spells with
        | cons isForm spells =>
            rw [List.cons_append, afterWord?, if_pos isForm]
            exact ih.mpr ⟨_, spells, rfl⟩

theorem afterBlanksAnd?_eq_some_iff {c : Char} (notBlank : isBlank c = false)
    {text rest : Text} :
    afterBlanksAnd? c text = some rest ↔
      ∃ blanks : Text, (∀ b ∈ blanks, isBlank b = true) ∧ text = blanks ++ c :: rest := by
  constructor
  · intro read
    obtain ⟨blanks, allBlank, whole⟩ := exists_blanks_append_trimStart text
    rw [afterBlanksAnd?] at read
    split at read
    · rename_i d tail trimmed
      split at read
      · refine ⟨blanks, allBlank, ?_⟩
        rw [whole, trimmed]
        simp_all
      · simp at read
    · simp at read
  · rintro ⟨blanks, allBlank, rfl⟩
    rw [afterBlanksAnd?, trimStart_blanks_append allBlank, trimStart_of_not_blank notBlank]
    simp

end Covenant.Text
