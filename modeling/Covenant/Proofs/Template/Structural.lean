import Covenant.Proofs.Numbering.Tokens
import Covenant.Proofs.Template.TokenTags
import Covenant.Template.Placeholder

/-!
# Structural tokens

Placeholders leave a token alone when its name is structural: the lower-case form of the name is the
word of a marker, or begins like the name of a block, a loop or a list.  A name like that of a marker
or of a conditional block makes the token one, so the passes for these take it.  What may stay are
the names of lists, and those that only begin like the tag of a loop.
-/

namespace Covenant

open Loop (Symbol)

/-! ### Lower case and letters -/

namespace CaseTable

/-- The image of a run of code points is beyond ASCII, or the run is the Kelvin sign alone. -/
def Shift.avoidsAscii (shift : Shift) : Bool :=
  decide (0x80 ≤ (shift.first : Int) + shift.delta) ||
    (shift.first == 0x212A && shift.last == 0x212A && shift.delta == 'k'.toNat - 0x212A)

theorem avoidsAscii_lowerShifts : lowerShifts.all Shift.avoidsAscii = true := by
  decide +kernel

theorem shifted_lowerShifts {code : Nat} (beyond : 0x80 ≤ code) :
    0x80 ≤ shifted lowerShifts code ∨ code = 0x212A ∧ shifted lowerShifts code = 'k'.toNat := by
  rw [shifted]
  split
  · rename_i shift found
    have covers : shift.covers code = true := by simpa using List.find?_some found
    have avoids := List.all_eq_true.mp avoidsAscii_lowerShifts shift (List.mem_of_find?_eq_some found)
    simp only [Shift.covers, Bool.and_eq_true, decide_eq_true_eq] at covers
    simp only [Shift.avoidsAscii, Bool.or_eq_true, decide_eq_true_eq, Bool.and_eq_true,
      beq_iff_eq] at avoids
    rcases avoids with image | ⟨⟨first, last⟩, delta⟩
    · exact .inl (by omega)
    · have isKelvin : code = 0x212A := by omega
      refine .inr ⟨isKelvin, ?_⟩
      rw [isKelvin, delta]
      rfl
  · exact .inl beyond

end CaseTable

namespace Text

/-- The characters of structural names. -/
def structuralChars : Text := "abcdefghijklmnopqrstuvwxyz_:#/"

/-- A character whose lower-case form is one of a structural name is a form of it. -/
theorem isFormOf_of_lowerChar {c d : Char} (structural : d ∈ structuralChars) {rest : Text}
    (lowered : lowerChar c = d :: rest) : isFormOf d c = true := by
  have ascii : structuralChars.all (fun d => (List.range 0x80).all fun code =>
      !((Char.ofNat code).toLower == d) || isFormOf d (Char.ofNat code)) = true := by
    decide +kernel
  have small : structuralChars.all (fun d => d.toNat < 0x80 && d != '\x00') = true := by
    decide +kernel
  obtain ⟨isSmall, notNull⟩ : d.toNat < 0x80 ∧ d ≠ '\x00' := by
    simpa using List.all_eq_true.mp small d structural
  rw [lowerChar] at lowered
  split at lowered
  · rename_i isAscii
    have own := List.all_eq_true.mp (List.all_eq_true.mp ascii d structural) c.toNat
      (List.mem_range.mpr isAscii)
    rw [Char.ofNat_toNat] at own
    simpa [(List.cons.inj lowered).1] using own
  · split at lowered
    · rename_i isDotted
      rw [isDotted, ← (List.cons.inj lowered).1]
      rfl
    · rename_i beyond _
      have isImage := (List.cons.inj lowered).1
      rcases CaseTable.shifted_lowerShifts (show 0x80 ≤ c.toNat by omega) with far | ⟨isKelvin, isK⟩
      · by_cases valid : (CaseTable.shifted CaseTable.lowerShifts c.toNat).isValidChar
        · rw [Char.ofNat, dif_pos valid] at isImage
          have image : d.toNat = CaseTable.shifted CaseTable.lowerShifts c.toNat := by
            rw [← isImage]
            rfl
          omega
        · rw [Char.ofNat, dif_neg valid] at isImage
          exact absurd isImage.symm notNull
      · have letter : d = 'k' := by
          rw [← isImage, isK]
          rfl
        have sign : c = '\u212A' := by
          rw [← Char.ofNat_toNat c, isKelvin]
        rw [letter, sign]
        decide

theorem Spells.exists_of_append {word more letters : Text} (spells : Spells (word ++ more) letters) :
    ∃ first later, letters = first ++ later ∧ Spells word first ∧ Spells more later :=
  ⟨_, _, (List.take_append_drop word.length letters).symm,
    (List.forall₂_take_append _ _ _ spells.flip).flip,
    (List.forall₂_drop_append _ _ _ spells.flip).flip⟩

/-- Only the dotted capital I has a second character in its lower-case form, a dot. -/
theorem exists_lowerChar (c : Char) :
    ∃ d rest, lowerChar c = d :: rest ∧ (rest = [] ∨ rest = ['\u0307']) := by
  rw [lowerChar]
  split
  · exact ⟨_, [], rfl, .inl rfl⟩
  · split
    · exact ⟨_, _, rfl, .inr rfl⟩
    · exact ⟨_, [], rfl, .inl rfl⟩

/-- A text whose lower-case form begins like a structural name begins with letters that spell it. -/
theorem exists_spells_of_prefix {spelling : Text} (structural : spelling.all structuralChars.contains = true)
    {before text : Text} (starts : spelling <+: lowerAfter before text) :
    ∃ first rest, text = first ++ rest ∧ Spells spelling first := by
  have others : '\u0307' ∉ structuralChars ∧ 'ς' ∉ structuralChars ∧ 'σ' ∉ structuralChars := by
    decide
  induction spelling generalizing before text with
  | nil => exact ⟨[], text, rfl, .nil⟩
  | cons d spelling ih =>
      obtain ⟨isOwn, later⟩ := Bool.and_eq_true_iff.mp structural
      have own : d ∈ structuralChars := List.contains_iff_mem.mp isOwn
      cases text with
      | nil => simp [lowerAfter] at starts
      | cons c text =>
          rw [lowerAfter] at starts
          split at starts
          · have isSigma := (List.cons_prefix_cons.mp starts).1
            split at isSigma
            · exact absurd (isSigma ▸ own) others.2.1
            · exact absurd (isSigma ▸ own) others.2.2
          · obtain ⟨e, rest, lowered, isRest⟩ := exists_lowerChar c
            rw [lowered, List.cons_append, List.cons_prefix_cons] at starts
            obtain ⟨rfl, starts⟩ := starts
            have isForm := isFormOf_of_lowerChar own lowered
            rcases isRest with rfl | rfl
            · obtain ⟨first, rest, rfl, spells⟩ := ih later starts
              exact ⟨c :: first, rest, rfl, .cons isForm spells⟩
            · cases spelling with
              | nil => exact ⟨[c], text, rfl, .cons isForm .nil⟩
              | cons x spelling =>
                  have isDot := (List.cons_prefix_cons.mp starts).1
                  have isNext : x ∈ structuralChars :=
                    List.contains_iff_mem.mp (Bool.and_eq_true_iff.mp later).1
                  exact absurd (isDot ▸ isNext) others.1

theorem length_le_length_lowerAfter (before text : Text) :
    text.length ≤ (lowerAfter before text).length := by
  induction text generalizing before with
  | nil => exact Nat.zero_le _
  | cons c text ih =>
      have later := ih (c :: before)
      rw [lowerAfter, List.length_append, List.length_cons]
      split
      · rw [List.length_singleton]
        omega
      · obtain ⟨d, rest, lowered, -⟩ := exists_lowerChar c
        rw [lowered, List.length_cons]
        omega

/-- A text whose lower-case form is a structural name is spelled like it. -/
theorem spells_of_lower_eq {spelling text : Text} (structural : spelling.all structuralChars.contains = true)
    (same : lower text = spelling) : Spells spelling text := by
  obtain ⟨first, rest, rfl, spells⟩ :=
    exists_spells_of_prefix structural (show spelling <+: lowerAfter [] text from same ▸ List.prefix_refl _)
  have length := length_le_length_lowerAfter [] (first ++ rest)
  rw [show lowerAfter [] (first ++ rest) = spelling from same, spells.length_eq,
    List.length_append] at length
  have none : rest = [] := List.length_eq_zero_iff.mp (by omega)
  rwa [none, List.append_nil]

end Text

namespace Placeholder

variable {content : Text}

/-- The name of a list. -/
def IsListName (content : Text) : Prop :=
  ∃ start ∈ (["list:", "lijst:"] : List Text), start <+: Text.lower (Text.trim content)

/-- A name that begins like the tag of a loop, of which it is none. -/
def IsStrayLoopMark (content : Text) : Prop :=
  (∃ rest, Text.trim content = '#' :: rest ∨ Text.trim content = '/' :: rest) ∧
    slotToken? Loop.recognise content = none

theorem accepted_of_structuralName (isName : Text.lower (Text.trim content) ∈ structuralNames) :
    NumberingMarker.Accepted (Symbol.slot content).source := by
  have known : ∀ name ∈ structuralNames, name ∈ NumberingMarker.spellings.map (·.1) ∧
      name.all Text.structuralChars.contains = true := by
    decide +kernel
  obtain ⟨spelling, structural⟩ := known _ isName
  obtain ⟨first, last, firstBlank, lastBlank, whole⟩ := Text.exists_blanks_trim_blanks content
  have encloses : NumberingMarker.Encloses (Text.trim content) (Symbol.slot content).source := by
    have written : (Symbol.slot content).source =
        '[' :: '[' :: (first ++ (Text.trim content ++ (last ++ [']', ']']))) := by
      conv_lhs => rw [whole]
      simp [Symbol.source]
    rw [written]
    exact .intro first last firstBlank lastBlank
  exact ⟨_, spelling, Text.trim content, Text.spells_of_lower_eq structural rfl, encloses⟩

theorem tag_of_start (free : BracketFree content) (isOpen : Bool)
    (starts : Conditional.wordOf isOpen ++ [':'] <+: Text.lower (Text.trim content)) :
    slotToken? Conditional.recognise content ≠ none := by
  have structural : (Conditional.wordOf isOpen ++ [':']).all Text.structuralChars.contains = true := by
    cases isOpen <;> decide
  obtain ⟨start, rest, isTrimmed, spells⟩ := Text.exists_spells_of_prefix structural starts
  obtain ⟨letters, colon, rfl, spellsWord, spellsColon⟩ := spells.exists_of_append
  obtain rfl : colon = [':'] := by
    cases spellsColon with
    | cons isForm none =>
        cases none
        simpa [Text.isFormOf, show ':'.toUpper = ':' from rfl] using isForm
  obtain ⟨first, last, firstBlank, -, whole⟩ := Text.exists_blanks_trim_blanks content
  rw [isTrimmed] at whole
  have argumentFree : BracketFree (rest ++ last) :=
    Lacks.of_subset free fun c member => by
      rw [whole]
      simp only [List.mem_append] at member ⊢
      tauto
  have tag : Conditional.TagText (Conditional.wordOf isOpen) (rest ++ last)
      (Symbol.slot content).source := by
    have written : (Symbol.slot content).source =
        '[' :: '[' :: (first ++ (letters ++ ([] ++ ':' :: ((rest ++ last) ++ [']', ']'])))) := by
      conv_lhs => rw [whole]
      simp [Symbol.source]
    rw [written]
    exact .intro first letters [] firstBlank spellsWord (List.forall_mem_nil _) argumentFree
  have recognised : Conditional.recognise none (Symbol.slot content).source =
      some (⟨isOpen, rest ++ last⟩, (Symbol.slot content).source.length) :=
    Conditional.recognise_eq_some_iff.mpr ⟨_, [], tag, (List.append_nil _).symm, rfl⟩
  simp [slotToken?, recognised]

/-- A structural token that is neither a tag of a loop or block nor a marker is that of a list, or one
that begins like the tag of a loop. -/
theorem isListName_or_isStrayLoopMark (free : BracketFree content)
    (structural : isStructural content = true) (noLoop : slotToken? Loop.recognise content = none)
    (noBlock : slotToken? Conditional.recognise content = none)
    (noMarker : ¬ NumberingMarker.Accepted (Symbol.slot content).source) :
    IsListName content ∨ IsStrayLoopMark content := by
  have mark {c : Char} (known : c = '#' ∨ c = '/') (starts : [c] <+: Text.lower (Text.trim content)) :
      IsStrayLoopMark content := by
    have isChar : [c].all Text.structuralChars.contains = true := by
      rcases known with rfl | rfl <;> decide
    obtain ⟨start, rest, isTrimmed, spells⟩ := Text.exists_spells_of_prefix isChar starts
    obtain rfl : start = [c] := by
      cases spells with
      | cons isForm none =>
          cases none
          rcases known with rfl | rfl
          · simpa [Text.isFormOf, show '#'.toUpper = '#' from rfl] using isForm
          · simpa [Text.isFormOf, show '/'.toUpper = '/' from rfl] using isForm
    refine ⟨⟨rest, ?_⟩, noLoop⟩
    rcases known with rfl | rfl
    · exact .inl isTrimmed
    · exact .inr isTrimmed
  simp only [isStructural, Bool.or_eq_true, List.any_eq_true, List.isPrefixOf_iff_prefix,
    List.contains_iff_mem] at structural
  rcases structural with isName | ⟨start, isStart, starts⟩
  · exact absurd (accepted_of_structuralName isName) noMarker
  · simp only [structuralStarts, List.mem_cons, List.not_mem_nil, or_false] at isStart
    rcases isStart with rfl | rfl | rfl | rfl | rfl | rfl
    · exact absurd noBlock (tag_of_start free true starts)
    · exact absurd noBlock (tag_of_start free false starts)
    · exact .inr (mark (.inl rfl) starts)
    · exact .inr (mark (.inr rfl) starts)
    · exact .inl ⟨_, by simp, starts⟩
    · exact .inl ⟨_, by simp, starts⟩

end Placeholder

end Covenant
