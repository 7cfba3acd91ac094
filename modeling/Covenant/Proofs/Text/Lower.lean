import Covenant.Proofs.Text.Blank
import Covenant.Text.Case
import Mathlib.Data.List.Basic

/-!
# Lower case

The lower case of a text is made character by character, except for sigma.  In ASCII it is a single
character for every character, whatever the case of that is.  White space, and what decides the form of
a sigma, do not depend on the case of the letters of ASCII, so the lower case of a text does not change
when these letters are made small first.
-/

namespace Covenant

namespace Text

/-- But for sigma, the lower case of a character does not depend on its neighbours. -/
theorem lowerAfter_append {first : Text} (noSigma : 'Σ' ∉ first) (before rest : Text) :
    lowerAfter before (first ++ rest) =
      first.flatMap lowerChar ++ lowerAfter (first.reverse ++ before) rest := by
  induction first generalizing before with
  | nil => rfl
  | cons c first ih =>
      rw [List.mem_cons, not_or] at noSigma
      rw [List.cons_append, lowerAfter, if_neg (Ne.symm noSigma.1), ih noSigma.2, List.flatMap_cons,
        List.reverse_cons, List.append_assoc, List.append_assoc, List.singleton_append]

theorem lower_eq_flatMap {text : Text} (noSigma : 'Σ' ∉ text) : lower text = text.flatMap lowerChar := by
  have whole := lowerAfter_append noSigma [] []
  rwa [List.append_nil, show lowerAfter _ [] = [] from by rw [lowerAfter], List.append_nil] at whole

/-- What holds of the characters with the first codes holds of the characters in ASCII. -/
@[elab_as_elim]
theorem ascii_cases {motive : Char → Prop} {c : Char} (ascii : c.toNat < 0x80)
    (each : ∀ code < 0x80, motive (Char.ofNat code)) : motive c := by
  simpa only [Char.ofNat_toNat] using each c.toNat ascii

theorem toNat_ofNat {code : Nat} (valid : code.isValidChar) : (Char.ofNat code).toNat = code := by
  rw [Char.ofNat, dif_pos valid]
  rfl

/-- What holds of each character that is written in a text holds of all its members. -/
theorem forall_mem_of_all {text : Text} {holds : Char → Prop} [DecidablePred holds]
    (all : text.all (holds ·) = true) : ∀ c ∈ text, holds c := by
  simpa using all

theorem toLower_of_ascii {c : Char} (ascii : c.toNat < 0x80) :
    c.toLower.toNat < 0x80 ∧ c.toLower.toLower = c.toLower := by
  refine ascii_cases ascii ?_
  decide +kernel

theorem toUpper_of_ascii {c : Char} (ascii : c.toNat < 0x80) :
    c.toUpper.toNat < 0x80 ∧ c.toUpper.toLower = c.toLower := by
  refine ascii_cases ascii ?_
  decide +kernel

/-- All characters of a text are in ASCII. -/
def IsAscii (text : Text) : Prop := ∀ c ∈ text, c.toNat < 0x80

instance : DecidablePred IsAscii := fun text => List.decidableBAll (fun c : Char => c.toNat < 0x80) text

theorem lower_of_ascii {text : Text} (ascii : IsAscii text) :
    lower text = text.map Char.toLower := by
  have noSigma : 'Σ' ∉ text := fun member => absurd (ascii 'Σ' member) (by decide)
  rw [lower_eq_flatMap noSigma, List.map_eq_flatMap]
  exact List.flatMap_congr fun c member => if_pos (ascii c member)

/-- Texts that are the same in lower case begin with the same letter. -/
theorem toLower_eq_of_sameLower {c d : Char} {rest otherRest : Text} (ascii : c.toNat < 0x80)
    (otherAscii : d.toNat < 0x80) (same : sameLower (c :: rest) (d :: otherRest) = true) :
    c.toLower = d.toLower := by
  have noSigma {e : Char} (low : e.toNat < 0x80) : e ≠ 'Σ' := by
    rintro rfl
    exact absurd low (by decide)
  rw [sameLower, beq_iff_eq, lower, lower, lowerAfter, lowerAfter, if_neg (noSigma ascii),
    if_neg (noSigma otherAscii), lowerChar, lowerChar, if_pos ascii, if_pos otherAscii] at same
  exact (List.cons.inj same).1

end Text

/-! ### Small letters of ASCII -/

/-- What does not tell a capital of ASCII from its small letter tells no character from its lower
case. -/
theorem apply_toLower {α : Type} (read : Char → α)
    (capitals : ∀ index < 26, read (Char.ofNat (0x41 + index)).toLower = read (Char.ofNat (0x41 + index)))
    (c : Char) : read c.toLower = read c := by
  by_cases capital : 0x41 ≤ c.toNat ∧ c.toNat ≤ 0x5A
  · have same := capitals (c.toNat - 0x41) (by omega)
    rwa [Nat.add_sub_cancel' capital.1, Char.ofNat_toNat] at same
  · have own : c.toLower = c := by
      refine dif_neg fun inRow => capital ?_
      simpa [UInt32.le_iff_toNat_le] using inRow
    rw [own]

@[simp]
theorem isBlank_toLower (c : Char) : isBlank c.toLower = isBlank c :=
  apply_toLower isBlank (by decide) c

@[simp]
theorem isCaseIgnorable_toLower (c : Char) : isCaseIgnorable c.toLower = isCaseIgnorable c :=
  apply_toLower isCaseIgnorable (by decide +kernel) c

@[simp]
theorem isCased_toLower (c : Char) : isCased c.toLower = isCased c :=
  apply_toLower isCased (by decide +kernel) c

theorem lowerChar_toLower (c : Char) : lowerChar c.toLower = lowerChar c :=
  apply_toLower lowerChar (by decide +kernel) c

theorem toLower_eq_sigma_iff (c : Char) : c.toLower = 'Σ' ↔ c = 'Σ' := by
  have same := apply_toLower (fun c => decide (c = 'Σ')) (by decide) c
  simpa using same

theorem startsCased_map_toLower (text : Text) :
    startsCased (text.map Char.toLower) = startsCased text := by
  have ignored : isCaseIgnorable ∘ Char.toLower = isCaseIgnorable := funext isCaseIgnorable_toLower
  rw [startsCased, startsCased, List.dropWhile_map, ignored]
  cases text.dropWhile isCaseIgnorable with
  | nil => rfl
  | cons c rest => exact isCased_toLower c

namespace Text

theorem trim_map_toLower (text : Text) : trim (text.map Char.toLower) = (trim text).map Char.toLower := by
  have blank : isBlank ∘ Char.toLower = isBlank := funext isBlank_toLower
  rw [trim_eq, trim_eq, List.dropWhile_map, blank, List.rdropWhile, List.rdropWhile, ← List.map_reverse,
    List.dropWhile_map, blank, List.map_reverse]

theorem lowerAfter_map_toLower (before text : Text) :
    lowerAfter (before.map Char.toLower) (text.map Char.toLower) = lowerAfter before text := by
  induction text generalizing before with
  | nil => rw [List.map_nil, lowerAfter, lowerAfter]
  | cons c rest ih =>
      have later := ih (c :: before)
      rw [List.map_cons] at later
      rw [List.map_cons, lowerAfter, lowerAfter, later, startsCased_map_toLower, startsCased_map_toLower,
        lowerChar_toLower]
      simp only [toLower_eq_sigma_iff]

/-- Small letters of ASCII have the lower case of their capitals. -/
theorem lower_map_toLower (text : Text) : lower (text.map Char.toLower) = lower text :=
  lowerAfter_map_toLower [] text

end Text

end Covenant
