import Covenant.Proofs.Template.Bracket
import Covenant.Template.Placeholder

/-!
# Marks and letter case

Brackets and other marks are neither letters nor beyond ASCII.  No character but a mark has a mark
among its upper-case and lower-case forms, so a text without marks has none in any other letter
case.  Beyond ASCII this is read off the tables: every form there is a letter or beyond ASCII again.
-/

namespace Covenant

/-- Characters of ASCII that are no letters. -/
def AreMarks (marks : Char → Bool) : Prop :=
  ∀ c, marks c = true → c.toNat < 0x80 ∧ c.isAlpha = false ∧ c ≠ '\x00'

/-- A text without certain marks. -/
def Lacks (marks : Char → Bool) (text : Text) : Prop := ∀ c ∈ text, marks c = false

instance (marks : Char → Bool) : DecidablePred (Lacks marks) := fun text =>
  List.decidableBAll (fun c => marks c = false) text

/-- A character that no marks can be: a letter, or one beyond ASCII. -/
def IsUnmarkable (c : Char) : Prop := 0x80 ≤ c.toNat ∨ c.isAlpha = true ∨ c = '\x00'

theorem AreMarks.eq_false {marks : Char → Bool} (areMarks : AreMarks marks) {c : Char}
    (unmarkable : IsUnmarkable c) : marks c = false := by
  by_contra isMark
  obtain ⟨ascii, noLetter, notNull⟩ := areMarks c (Bool.not_eq_false _ ▸ isMark)
  rcases unmarkable with beyond | isLetter | isNull
  · omega
  · rw [noLetter] at isLetter
    cases isLetter
  · exact notNull isNull

/-! ### Forms of characters -/

/-- A code point of a letter, or one beyond ASCII. -/
def isUnmarkableCode (code : Nat) : Bool := 0x80 ≤ code || (Char.ofNat code).isAlpha

theorem isUnmarkable_ofNat {code : Nat} (unmarkable : isUnmarkableCode code = true) :
    IsUnmarkable (Char.ofNat code) := by
  simp only [isUnmarkableCode, Bool.or_eq_true, decide_eq_true_eq] at unmarkable
  rcases unmarkable with beyond | isLetter
  · by_cases valid : code.isValidChar
    · refine .inl ?_
      rw [Char.ofNat, dif_pos valid]
      exact beyond
    · refine .inr (.inr ?_)
      rw [Char.ofNat, dif_neg valid]
      rfl
  · exact .inr (.inl isLetter)

namespace CaseTable

/-- The image of a run of code points is beyond ASCII, or the run is one code point and its image
a letter. -/
def Shift.avoidsMarks (shift : Shift) : Bool :=
  decide (0x80 ≤ (shift.first : Int) + shift.delta) ||
    (shift.first == shift.last && isUnmarkableCode ((shift.first : Int) + shift.delta).toNat)

theorem avoidsMarks_lowerShifts : lowerShifts.all Shift.avoidsMarks = true := by
  decide +kernel

theorem avoidsMarks_upperShifts : upperShifts.all Shift.avoidsMarks = true := by
  decide +kernel

theorem isUnmarkableCode_shifted {shifts : List Shift}
    (avoids : shifts.all Shift.avoidsMarks = true) {code : Nat} (beyond : 0x80 ≤ code) :
    isUnmarkableCode (shifted shifts code) = true := by
  rw [shifted]
  split
  · rename_i shift found
    have covers : shift.covers code = true := by simpa using List.find?_some found
    have avoidsOne := List.all_eq_true.mp avoids shift (List.mem_of_find?_eq_some found)
    simp only [Shift.covers, Bool.and_eq_true, decide_eq_true_eq] at covers
    simp only [Shift.avoidsMarks, Bool.or_eq_true, decide_eq_true_eq, Bool.and_eq_true,
      beq_iff_eq] at avoidsOne
    rcases avoidsOne with image | ⟨single, image⟩
    · have farAway : 0x80 ≤ ((code : Int) + shift.delta).toNat := by omega
      simp [isUnmarkableCode, farAway]
    · obtain rfl : code = shift.first := by omega
      exact image
  · simp [isUnmarkableCode, beyond]

theorem isUnmarkableCode_upperExpansions :
    upperExpansions.all (fun (_, codes) => codes.all isUnmarkableCode) = true := by
  decide +kernel

end CaseTable

theorem toLower_ascii : ∀ code < 0x80, (Char.ofNat code).toLower = Char.ofNat code ∨
    (Char.ofNat code).toLower.isAlpha = true := by
  decide +kernel

theorem toUpper_ascii : ∀ code < 0x80, (Char.ofNat code).toUpper = Char.ofNat code ∨
    (Char.ofNat code).toUpper.isAlpha = true := by
  decide +kernel

theorem mem_lowerChar {c d : Char} (member : d ∈ lowerChar c) : d = c ∨ IsUnmarkable d := by
  rw [lowerChar] at member
  split at member
  · have ascii := toLower_ascii c.toNat ‹_›
    rw [Char.ofNat_toNat] at ascii
    rw [List.mem_singleton.mp member]
    exact ascii.imp_right fun isLetter => .inr (.inl isLetter)
  · refine .inr ?_
    split at member
    · simp only [List.mem_cons, List.not_mem_nil, or_false] at member
      rcases member with rfl | rfl
      · exact .inr (.inl rfl)
      · exact .inl (by decide)
    · rename_i beyond _
      rw [List.mem_singleton.mp member]
      exact isUnmarkable_ofNat
        (CaseTable.isUnmarkableCode_shifted CaseTable.avoidsMarks_lowerShifts (by omega))

theorem mem_upperChar {c d : Char} (member : d ∈ upperChar c) : d = c ∨ IsUnmarkable d := by
  rw [upperChar] at member
  split at member
  · have ascii := toUpper_ascii c.toNat ‹_›
    rw [Char.ofNat_toNat] at ascii
    rw [List.mem_singleton.mp member]
    exact ascii.imp_right fun isLetter => .inr (.inl isLetter)
  · refine .inr ?_
    split at member
    · rename_i codes found
      obtain ⟨code, inCodes, rfl⟩ := List.mem_map.mp member
      obtain ⟨before, after, listed, -⟩ := List.lookup_eq_some_iff.mp found
      have unmarkable := List.all_eq_true.mp CaseTable.isUnmarkableCode_upperExpansions
        (c.toNat, codes) (by rw [listed]; simp)
      exact isUnmarkable_ofNat (List.all_eq_true.mp unmarkable code inCodes)
    · rename_i beyond _ _
      rw [List.mem_singleton.mp member]
      exact isUnmarkable_ofNat
        (CaseTable.isUnmarkableCode_shifted CaseTable.avoidsMarks_upperShifts (by omega))

/-! ### Texts -/

/-- No character but a mark has a mark among its upper-case and lower-case forms. -/
structure Caseless (marks : Char → Bool) : Prop where
  lowerChar : ∀ {c}, marks c = false → Lacks marks (lowerChar c)
  upperChar : ∀ {c}, marks c = false → Lacks marks (upperChar c)
  sigmas : Lacks marks "σς"

theorem AreMarks.caseless {marks : Char → Bool} (areMarks : AreMarks marks) : Caseless marks where
  lowerChar noMark d member := by
    rcases mem_lowerChar member with rfl | unmarkable
    · exact noMark
    · exact areMarks.eq_false unmarkable
  upperChar noMark d member := by
    rcases mem_upperChar member with rfl | unmarkable
    · exact noMark
    · exact areMarks.eq_false unmarkable
  sigmas d member := by
    have beyond : ("σς" : Text).all (fun sigma => 0x80 ≤ sigma.toNat) = true := by decide
    exact areMarks.eq_false (.inl (by simpa using List.all_eq_true.mp beyond d member))

namespace Lacks

variable {marks : Char → Bool} {text first second : Text}

theorem nil : Lacks marks [] := fun _ member => nomatch member

theorem of_subset (lacks : Lacks marks text) (subset : ∀ c ∈ first, c ∈ text) : Lacks marks first :=
  fun c member => lacks c (subset c member)

theorem append (lacksFirst : Lacks marks first) (lacksSecond : Lacks marks second) :
    Lacks marks (first ++ second) := by
  intro c member
  rcases List.mem_append.mp member with member | member
  · exact lacksFirst c member
  · exact lacksSecond c member

theorem cons {c : Char} (noMark : marks c = false) (lacks : Lacks marks text) :
    Lacks marks (c :: text) := by
  intro d member
  rcases List.mem_cons.mp member with rfl | member
  · exact noMark
  · exact lacks d member

theorem flatten {texts : List Text} (each : ∀ text ∈ texts, Lacks marks text) :
    Lacks marks texts.flatten := by
  intro c member
  obtain ⟨text, isText, inText⟩ := List.mem_flatten.mp member
  exact each text isText c inText

theorem trim (lacks : Lacks marks text) : Lacks marks (Text.trim text) :=
  lacks.of_subset fun _ member => Text.mem_of_mem_trim member

variable (caseless : Caseless marks)
include caseless

theorem upper (lacks : Lacks marks text) : Lacks marks (Text.upper text) := by
  intro d member
  obtain ⟨c, inText, inForm⟩ := List.mem_flatMap.mp member
  exact caseless.upperChar (lacks c inText) d inForm

theorem lowerAfter (lacks : Lacks marks text) (before : Text) :
    Lacks marks (Text.lowerAfter before text) := by
  induction text generalizing before with
  | nil => exact nil
  | cons c text ih =>
      rw [Text.lowerAfter]
      apply append _ (ih (fun other member => lacks other (by simp [member])) _)
      split
      · intro d member
        split at member
        · rw [List.mem_singleton.mp member]
          exact caseless.sigmas 'ς' (by decide)
        · rw [List.mem_singleton.mp member]
          exact caseless.sigmas 'σ' (by decide)
      · exact caseless.lowerChar (lacks c (by simp))

theorem lower (lacks : Lacks marks text) : Lacks marks (Text.lower text) :=
  lacks.lowerAfter caseless []

theorem capitalize (lacks : Lacks marks text) : Lacks marks (Text.capitalize text) := by
  cases text with
  | nil => exact nil
  | cons c text =>
      exact append (caseless.upperChar (lacks c (by simp)))
        fun other member => lacks other (by simp [member])

theorem applyGiven (lacks : Lacks marks text) (modifier : Option Modifier) :
    Lacks marks (Modifier.applyGiven modifier text) := by
  cases modifier with
  | none => exact lacks
  | some modifier =>
      rw [Modifier.applyGiven, Modifier.apply]
      split
      · exact lacks.capitalize caseless
      · split
        · exact lacks.upper caseless
        · exact lacks.lower caseless

end Lacks

theorem areMarks_isBracket : AreMarks isBracket := by
  intro c isMark
  rcases isBracket_iff.mp isMark with rfl | rfl
  · decide
  · decide

namespace BracketFree

theorem applyGiven {value : Text} (free : BracketFree value) (modifier : Option Modifier) :
    BracketFree (Modifier.applyGiven modifier value) :=
  Lacks.applyGiven areMarks_isBracket.caseless free modifier

end BracketFree

end Covenant
