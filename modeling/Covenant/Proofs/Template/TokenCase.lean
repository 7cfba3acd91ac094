import Covenant.Proofs.Template.Tokenised
import Covenant.Proofs.Text.Lower

/-!
# Tokens and letter case

A change of letter case is made character by character.  Brackets and line breaks have no case, so
they stay where they are, and the tokens of a text stay tokens.
-/

namespace Covenant

open Loop (Symbol)

variable {kept : Text → Prop} {text : Text}

/-- What a change of letter case may make of a character. -/
structure IsCaseOf (c : Char) (image : Text) : Prop where
  /-- Brackets and line breaks have no case. -/
  same : isBracket c = true ∨ isLineBreak c = true → image = [c]
  free : ∀ marks, AreMarks marks → marks c = false → Lacks marks image
  ascii : c.toNat < 0x80 → ∃ d, image = [d] ∧ d.toNat < 0x80 ∧ d.toLower = c.toLower

theorem IsCaseOf.refl (c : Char) : IsCaseOf c [c] where
  same _ := rfl
  free _ _ isFree := Lacks.cons isFree Lacks.nil
  ascii small := ⟨c, rfl, small, rfl⟩

theorem isBracket_or_isLineBreak_iff {c : Char} : isBracket c = true ∨ isLineBreak c = true ↔
    c = '[' ∨ c = ']' ∨ c = '\r' ∨ c = '\n' := by
  simp [isBracket, isLineBreak, or_assoc]

theorem isCaseOf_lowerChar (c : Char) : IsCaseOf c (lowerChar c) where
  same caseless := by
    rcases isBracket_or_isLineBreak_iff.mp caseless with rfl | rfl | rfl | rfl <;> rfl
  free _ areMarks isFree := areMarks.caseless.lowerChar isFree
  ascii small := ⟨c.toLower, if_pos small, Text.toLower_of_ascii small⟩

theorem isCaseOf_upperChar (c : Char) : IsCaseOf c (upperChar c) where
  same caseless := by
    rcases isBracket_or_isLineBreak_iff.mp caseless with rfl | rfl | rfl | rfl <;> rfl
  free _ areMarks isFree := areMarks.caseless.upperChar isFree
  ascii small := ⟨c.toUpper, if_pos small, Text.toUpper_of_ascii small⟩

theorem isCaseOf_sigma {d : Char} (beyond : 0x80 ≤ d.toNat) : IsCaseOf 'Σ' [d] where
  same caseless := absurd caseless (by decide)
  free _ areMarks _ := Lacks.cons (areMarks.eq_false (.inl beyond)) Lacks.nil
  ascii small := absurd small (by decide)

/-- A text in another letter case, character by character. -/
def Recased (text changed : Text) : Prop :=
  ∃ images, List.Forall₂ IsCaseOf text images ∧ changed = images.flatten

namespace Recased

theorem nil : Recased [] [] := ⟨[], .nil, rfl⟩

theorem cons {c : Char} {image changed : Text} (own : IsCaseOf c image) (later : Recased text changed) :
    Recased (c :: text) (image ++ changed) := by
  obtain ⟨images, each, rfl⟩ := later
  exact ⟨image :: images, .cons own each, rfl⟩

theorem refl (text : Text) : Recased text text := by
  induction text with
  | nil => exact nil
  | cons c text ih => exact cons (.refl c) ih

theorem upper (text : Text) : Recased text (Text.upper text) := by
  induction text with
  | nil => exact nil
  | cons c text ih => exact cons (isCaseOf_upperChar c) ih

theorem lowerAfter (before text : Text) : Recased text (Text.lowerAfter before text) := by
  induction text generalizing before with
  | nil => exact nil
  | cons c text ih =>
      rw [Text.lowerAfter]
      refine cons ?_ (ih (c :: before))
      split
      · rename_i isSigma
        rw [isSigma]
        refine isCaseOf_sigma ?_
        split <;> decide
      · exact isCaseOf_lowerChar c

theorem capitalize (text : Text) : Recased text (Text.capitalize text) := by
  cases text with
  | nil => exact nil
  | cons c text => exact cons (isCaseOf_upperChar c) (refl text)

theorem applyGiven (modifier : Option Modifier) (value : Text) :
    Recased value (Modifier.applyGiven modifier value) := by
  cases modifier with
  | none => exact refl value
  | some modifier =>
      rw [Modifier.applyGiven, Modifier.apply]
      split
      · exact capitalize value
      · split
        · exact upper value
        · exact lowerAfter [] value

theorem exists_of_append {first second changed : Text} (recased : Recased (first ++ second) changed) :
    ∃ own later, changed = own ++ later ∧ Recased first own ∧ Recased second later := by
  obtain ⟨images, each, rfl⟩ := recased
  refine ⟨_, _, ?_, ⟨_, (List.forall₂_take_append _ _ _ each.flip).flip, rfl⟩,
    ⟨_, (List.forall₂_drop_append _ _ _ each.flip).flip, rfl⟩⟩
  rw [← List.flatten_append, List.take_append_drop]

theorem exists_of_cons {c : Char} {changed : Text} (recased : Recased (c :: text) changed) :
    ∃ image later, changed = image ++ later ∧ IsCaseOf c image ∧ Recased text later := by
  obtain ⟨images, each, rfl⟩ := recased
  cases each with
  | @cons _ image _ images own later => exact ⟨image, _, rfl, own, images, later, rfl⟩

theorem lacks {marks : Char → Bool} (areMarks : AreMarks marks) {changed : Text}
    (recased : Recased text changed) (free : Lacks marks text) : Lacks marks changed := by
  induction text generalizing changed with
  | nil =>
      obtain ⟨images, each, rfl⟩ := recased
      cases each
      exact Lacks.nil
  | cons c text ih =>
      obtain ⟨image, later, rfl, own, isLater⟩ := recased.exists_of_cons
      exact (own.free marks areMarks (free c List.mem_cons_self)).append
        (ih isLater fun other member => free other (List.mem_cons_of_mem c member))

/-- In another letter case ASCII stays ASCII. -/
theorem ascii {changed : Text} (recased : Recased text changed) (small : ∀ c ∈ text, c.toNat < 0x80) :
    (∀ c ∈ changed, c.toNat < 0x80) ∧ changed.map Char.toLower = text.map Char.toLower := by
  induction text generalizing changed with
  | nil =>
      obtain ⟨images, each, rfl⟩ := recased
      cases each
      exact ⟨nofun, rfl⟩
  | cons c text ih =>
      obtain ⟨first, others⟩ := List.forall_mem_cons.mp small
      obtain ⟨image, later, rfl, own, isLater⟩ := recased.exists_of_cons
      obtain ⟨d, rfl, isAscii, same⟩ := own.ascii first
      obtain ⟨laterAscii, laterSame⟩ := ih isLater others
      refine ⟨List.forall_mem_cons.mpr ⟨isAscii, laterAscii⟩, ?_⟩
      rw [List.singleton_append, List.map_cons, List.map_cons, same, laterSame]

/-- Brackets stay where they are, so a slot stays a slot. -/
theorem exists_slot {content changed : Text} (recased : Recased (Symbol.slot content).source changed) :
    ∃ other, changed = (Symbol.slot other).source ∧ Recased content other := by
  obtain ⟨first, later, rfl, isFirst, recased⟩ := recased.exists_of_cons
  obtain ⟨second, later, rfl, isSecond, recased⟩ := recased.exists_of_cons
  obtain ⟨other, later, rfl, isOther, recased⟩ := recased.exists_of_append
  obtain ⟨third, later, rfl, isThird, recased⟩ := recased.exists_of_cons
  obtain ⟨fourth, later, rfl, isFourth, recased⟩ := recased.exists_of_cons
  obtain ⟨images, none, rfl⟩ := recased
  cases none
  rw [isFirst.same (.inl rfl), isSecond.same (.inl rfl), isThird.same (.inl rfl),
    isFourth.same (.inl rfl)]
  exact ⟨other, rfl, isOther⟩

theorem noBreak {changed : Text} (recased : Recased text changed)
    (oneLine : ∀ c ∈ changed, isLineBreak c = false) : ∀ c ∈ text, isLineBreak c = false := by
  induction text generalizing changed with
  | nil => nofun
  | cons c text ih =>
      obtain ⟨image, later, rfl, own, isLater⟩ := recased.exists_of_cons
      intro d member
      rcases List.mem_cons.mp member with rfl | inText
      · by_contra isBreak
        have image := own.same (.inr (by simpa using isBreak))
        exact isBreak (oneLine d (by simp [image]))
      · exact ih isLater (fun other inLater => oneLine other (List.mem_append_right _ inLater)) d inText

theorem isToken {changed : Text} (recased : Recased text changed) (isToken : IsToken changed) :
    IsToken text := by
  refine ⟨?_, recased.noBreak isToken.2⟩
  rintro rfl
  obtain ⟨images, none, rfl⟩ := recased
  cases none
  exact isToken.1 rfl

end Recased

/-- A tokenised text stays tokenised in another letter case; what is known of the contents of its
tokens has to be known in any case. -/
theorem Tokenised.recased {also : Text → Prop} {changed : Text} (tokenised : Tokenised isBracket kept text)
    (recased : Recased text changed)
    (anyCase : ∀ content other, kept content → Recased content other → also other) :
    Tokenised isBracket also changed := by
  obtain ⟨symbols, rfl, bears⟩ := tokenised
  induction symbols generalizing changed with
  | nil =>
      obtain ⟨images, none, rfl⟩ := recased
      cases none
      exact .of_lacks Lacks.nil
  | cons symbol symbols ih =>
      have own := bears symbol List.mem_cons_self
      have written : Symbol.written (symbol :: symbols) = symbol.source ++ Symbol.written symbols :=
        rfl
      rw [written] at recased
      obtain ⟨first, later, rfl, isFirst, isLater⟩ := recased.exists_of_append
      refine Tokenised.append ?_
        (ih (fun other member => bears other (List.mem_cons_of_mem symbol member)) isLater)
      cases symbol with
      | char c => exact .of_lacks (isFirst.lacks areMarks_isBracket (Lacks.cons own Lacks.nil))
      | slot content =>
          obtain ⟨other, rfl, isOther⟩ := isFirst.exists_slot
          exact .of_slot (isOther.lacks areMarks_isDelimiter own.1) fun isToken =>
            anyCase content other (own.2 (isOther.isToken isToken)) isOther

end Covenant
