import Covenant.Proofs.Text.Lower
import Covenant.Text.Case

/-!
# Upper case twice

Characters in upper case have no further upper case.  Beyond ASCII this is read off the tables: the
image of a run of code points is met by no run, or lies between the code points of those that it meets.
The forms in upper case are white space just where the characters are.
-/

namespace Covenant

namespace CaseTable

/-- A code point whose character is its own upper-case form. -/
structure IsCapital (code : Nat) : Prop where
  ascii : code < 0x80 → (Char.ofNat code).toUpper = Char.ofNat code
  unexpanded : ∀ expansion ∈ upperExpansions, expansion.1 ≠ code
  uncovered : ∀ shift ∈ upperShifts, shift.covers code = false

namespace Shift

def image (shift : Shift) (code : Nat) : Nat := (code + shift.delta).toNat

/-- The code points from `first` to `last` are in front of a run or behind it. -/
def misses (shift : Shift) (first last : Nat) : Bool :=
  last.blt shift.first || shift.last.blt first

/-- The image of a run is beyond ASCII, or it is a single capital. -/
def leadsToCapitals (shift : Shift) : Bool :=
  Nat.ble 0x80 (shift.image shift.first) ||
    shift.first == shift.last &&
      (Char.ofNat (shift.image shift.first)).toUpper == Char.ofNat (shift.image shift.first)

/-- The image of a run is apart from another run, or both take the same steps, or the image is a
single code point, and it lies between the code points of the other run. -/
def avoids (shift other : Shift) : Bool :=
  other.misses (shift.image shift.first) (shift.image shift.last) ||
    (other.step == shift.step || shift.first == shift.last) &&
      shift.image shift.first % other.step != other.first % other.step

end Shift

theorem leadsToCapitals_upperShifts : upperShifts.all Shift.leadsToCapitals = true := by
  decide +kernel

theorem avoids_upperShifts :
    upperShifts.all (fun shift => upperShifts.all shift.avoids) = true := by
  decide +kernel

theorem misses_upperExpansions :
    upperShifts.all (fun shift => upperExpansions.all fun (code, _) =>
      code.blt (shift.image shift.first) || (shift.image shift.last).blt code) = true := by
  decide +kernel

theorem covers_eq_false_of_misses {shift : Shift} {first last code : Nat}
    (misses : shift.misses first last = true) (from_first : first ≤ code) (to_last : code ≤ last) :
    shift.covers code = false := by
  simp only [Shift.misses, Bool.or_eq_true, Nat.blt_eq] at misses
  simp only [Shift.covers, Bool.and_eq_false_iff, decide_eq_false_iff_not]
  omega

section Image

variable {shift other : Shift} {code : Nat}

/-- A code point of a run is its first one some steps on, and so is its image. -/
theorem Shift.image_of_covers (leads : shift.leadsToCapitals = true) (covers : shift.covers code = true) :
    shift.image shift.first ≤ shift.image code ∧ shift.image code ≤ shift.image shift.last ∧
      ∃ steps, shift.image code = shift.image shift.first + steps * shift.step := by
  simp only [Shift.covers, Bool.and_eq_true, decide_eq_true_eq, beq_iff_eq] at covers
  obtain ⟨⟨from_first, to_last⟩, on_step⟩ := covers
  simp only [image]
  refine ⟨by omega, by omega, ?_⟩
  simp only [leadsToCapitals, image, Bool.or_eq_true, Nat.ble_eq, Bool.and_eq_true, beq_iff_eq] at leads
  rcases leads with beyond | ⟨single, -⟩
  · refine ⟨(code - shift.first) / shift.step, ?_⟩
    have exact := Nat.div_mul_cancel (Nat.dvd_of_mod_eq_zero on_step)
    rw [exact]
    omega
  · obtain rfl : code = shift.first := by omega
    exact ⟨0, by omega⟩

theorem covers_image_eq_false (leads : shift.leadsToCapitals = true)
    (avoids : shift.avoids other = true) (covers : shift.covers code = true) :
    other.covers (shift.image code) = false := by
  obtain ⟨from_first, to_last, steps, stepped⟩ := Shift.image_of_covers leads covers
  simp only [Shift.avoids, Bool.or_eq_true, Bool.and_eq_true, beq_iff_eq, bne_iff_ne] at avoids
  rcases avoids with misses | ⟨sameSteps, between⟩
  · exact covers_eq_false_of_misses misses from_first to_last
  · have remainder : shift.image code % other.step = shift.image shift.first % other.step := by
      rcases sameSteps with same | single
      · rw [stepped, same, Nat.add_mul_mod_self_right]
      · rw [single] at from_first ⊢
        rw [Nat.le_antisymm to_last from_first]
    simp only [Shift.covers, Bool.and_eq_false_iff, decide_eq_false_iff_not, beq_eq_false_iff_ne]
    by_cases behind : other.first ≤ shift.image code
    · refine .inr fun onStep => between ?_
      obtain ⟨count, distance⟩ := Nat.dvd_of_mod_eq_zero onStep
      rw [← remainder, ← Nat.sub_add_cancel behind, distance, Nat.mul_add_mod]
    · exact .inl (.inl behind)

theorem isCapital_image (member : shift ∈ upperShifts) (covers : shift.covers code = true) :
    IsCapital (shift.image code) := by
  have leads := List.all_eq_true.mp leadsToCapitals_upperShifts shift member
  obtain ⟨from_first, to_last, -⟩ := Shift.image_of_covers leads covers
  have apart := List.all_eq_true.mp misses_upperExpansions shift member
  have avoids := List.all_eq_true.mp avoids_upperShifts shift member
  refine ⟨fun ascii => ?_, fun expansion isExpansion same => ?_, fun other isShift => ?_⟩
  · simp only [Shift.leadsToCapitals, Bool.or_eq_true, Nat.ble_eq, Bool.and_eq_true,
      beq_iff_eq] at leads
    rcases leads with beyond | ⟨single, capital⟩
    · omega
    · rw [← single] at to_last
      rwa [Nat.le_antisymm to_last from_first]
  · have missed := List.all_eq_true.mp apart expansion isExpansion
    simp only [Bool.or_eq_true, Nat.blt_eq] at missed
    omega
  · exact covers_image_eq_false leads (List.all_eq_true.mp avoids other isShift) covers

end Image

/-- The code points of an expansion are capitals. -/
theorem isCapital_of_mem_expansion :
    ∀ expansion ∈ upperExpansions, ∀ code ∈ expansion.2, IsCapital code := by
  have each : upperExpansions.all (fun (_, codes) => codes.all fun code =>
      (Nat.ble 0x80 code || (Char.ofNat code).toUpper == Char.ofNat code) &&
        upperExpansions.all (fun (other, _) => other != code) &&
          upperShifts.all (·.misses code code)) = true := by
    decide +kernel
  intro expansion isExpansion code member
  have holds := List.all_eq_true.mp (List.all_eq_true.mp each expansion isExpansion) code member
  simp only [Bool.and_eq_true, Bool.or_eq_true, Nat.ble_eq, beq_iff_eq, List.all_eq_true,
    bne_iff_ne] at holds
  obtain ⟨⟨ascii, unexpanded⟩, missed⟩ := holds
  exact ⟨fun low => ascii.resolve_left (by omega), unexpanded, fun shift isShift =>
    covers_eq_false_of_misses (missed shift isShift) Nat.le.refl Nat.le.refl⟩

theorem shifted_eq_self {shifts : List Shift} {code : Nat}
    (uncovered : ∀ shift ∈ shifts, shift.covers code = false) : shifted shifts code = code := by
  have none : shifts.find? (·.covers code) = none :=
    List.find?_eq_none.mpr fun shift member => by simp [uncovered shift member]
  rw [shifted, none]

theorem IsCapital.upperChar_ofNat {code : Nat} (capital : IsCapital code) :
    upperChar (Char.ofNat code) = [Char.ofNat code] := by
  by_cases valid : code.isValidChar
  · have sameCode : (Char.ofNat code).toNat = code := Text.toNat_ofNat valid
    have unlisted : upperExpansions.lookup code = none :=
      List.lookup_eq_none_iff.mpr fun expansion member => by
        simpa using (capital.unexpanded expansion member).symm
    rw [upperChar, sameCode, unlisted]
    dsimp only
    rw [shifted_eq_self capital.uncovered]
    split
    · rename_i ascii
      rw [capital.ascii ascii]
    · rfl
  · rw [Char.ofNat, dif_neg valid]
    decide

end CaseTable

/-- The characters of an upper-case form are in upper case. -/
theorem upperChar_of_mem {c d : Char} (member : d ∈ upperChar c) : upperChar d = [d] := by
  rw [upperChar] at member
  split at member
  · rename_i ascii
    obtain rfl := List.mem_singleton.mp member
    refine Text.ascii_cases ascii ?_
    decide +kernel
  · split at member
    · rename_i codes listed
      obtain ⟨code, inCodes, rfl⟩ := List.mem_map.mp member
      obtain ⟨before, after, isTable, -⟩ := List.lookup_eq_some_iff.mp listed
      exact (CaseTable.isCapital_of_mem_expansion (c.toNat, codes) (by rw [isTable]; simp) code
        inCodes).upperChar_ofNat
    · rename_i beyond _ unlisted
      obtain rfl := List.mem_singleton.mp member
      rw [CaseTable.shifted]
      split
      · rename_i shift found
        exact (CaseTable.isCapital_image (List.mem_of_find?_eq_some found)
          (by simpa using List.find?_some found)).upperChar_ofNat
      · rename_i uncovered
        rw [Char.ofNat_toNat, upperChar, if_neg beyond, unlisted]
        dsimp only
        rw [CaseTable.shifted, uncovered]
        dsimp only
        rw [Char.ofNat_toNat]

namespace Text

theorem upper_append (first second : Text) : upper (first ++ second) = upper first ++ upper second :=
  List.flatMap_append

theorem upper_upper (text : Text) : upper (upper text) = upper text := by
  rw [upper, upper, List.flatMap_assoc]
  refine List.flatMap_congr fun c _ => ?_
  calc (upperChar c).flatMap upperChar
      = (upperChar c).flatMap (fun d => [d]) := List.flatMap_congr fun d member => upperChar_of_mem member
    _ = upperChar c := List.flatMap_singleton' _

end Text

/-! ## White space in upper case -/

namespace CaseTable

/-- The code points of white space. -/
def blankRanges : List (Nat × Nat) := [
  (0x9, 0xD), (0x1C, 0x20), (0x85, 0x85), (0xA0, 0xA0), (0x1680, 0x1680), (0x2000, 0x200A),
  (0x2028, 0x2029), (0x202F, 0x202F), (0x205F, 0x205F), (0x3000, 0x3000)]

theorem isBlank_eq_inRanges (c : Char) : isBlank c = inRanges blankRanges c.toNat := by
  rw [Bool.eq_iff_iff]
  unfold isBlank
  simp only [inRanges, blankRanges, List.any_cons, List.any_nil, Bool.or_eq_true, Bool.and_eq_true,
    decide_eq_true_eq]
  split
  · simp
    omega
  · simp
    omega

/-- No run, and no image of one, has a code point of white space. -/
theorem misses_blankRanges :
    upperShifts.all (fun shift => blankRanges.all fun (first, last) => shift.misses first last &&
      (last.blt (shift.image shift.first) || (shift.image shift.last).blt first)) = true := by
  decide +kernel

theorem unblank_upperExpansions :
    upperExpansions.all (fun (code, codes) => !inRanges blankRanges code &&
      codes.all fun form => !isBlank (Char.ofNat form)) = true := by
  decide +kernel

theorem toUpper_blank_ascii :
    ∀ code < 0x80, isBlank (Char.ofNat code).toUpper = isBlank (Char.ofNat code) := by
  decide +kernel

section Image

variable {shift : Shift} {code : Nat}

theorem covers_eq_false_of_blank (member : shift ∈ upperShifts) (blank : inRanges blankRanges code = true) :
    shift.covers code = false := by
  obtain ⟨range, isRange, within⟩ := List.any_eq_true.mp blank
  have missed := List.all_eq_true.mp (List.all_eq_true.mp misses_blankRanges shift member) range isRange
  simp only [Bool.and_eq_true, decide_eq_true_eq] at missed within
  exact covers_eq_false_of_misses missed.1 within.1 within.2

theorem isBlank_image (member : shift ∈ upperShifts) (covers : shift.covers code = true) :
    isBlank (Char.ofNat (shift.image code)) = false := by
  have leads := List.all_eq_true.mp leadsToCapitals_upperShifts shift member
  obtain ⟨low, high, -⟩ := Shift.image_of_covers leads covers
  by_cases valid : (shift.image code).isValidChar
  · rw [isBlank_eq_inRanges, Text.toNat_ofNat valid, inRanges, List.any_eq_false]
    intro range isRange
    have missed := List.all_eq_true.mp (List.all_eq_true.mp misses_blankRanges shift member) range isRange
    simp only [Bool.and_eq_true, Bool.or_eq_true, Nat.blt_eq, decide_eq_true_eq] at missed ⊢
    omega
  · rw [Char.ofNat, dif_neg valid]
    decide

end Image

end CaseTable

/-- A form in upper case is white space exactly when the character is. -/
theorem isBlank_of_mem_upperChar {c d : Char} (member : d ∈ upperChar c) : isBlank d = isBlank c := by
  rw [upperChar] at member
  split at member
  · rename_i ascii
    obtain rfl := List.mem_singleton.mp member
    exact Text.ascii_cases ascii CaseTable.toUpper_blank_ascii
  · split at member
    · rename_i codes listed
      obtain ⟨code, inCodes, rfl⟩ := List.mem_map.mp member
      obtain ⟨before, after, isTable, -⟩ := List.lookup_eq_some_iff.mp listed
      have unblank := List.all_eq_true.mp CaseTable.unblank_upperExpansions (c.toNat, codes)
        (by rw [isTable]; simp)
      simp only [Bool.and_eq_true, Bool.not_eq_true', List.all_eq_true] at unblank
      rw [unblank.2 code inCodes, CaseTable.isBlank_eq_inRanges, unblank.1]
    · obtain rfl := List.mem_singleton.mp member
      rw [CaseTable.shifted]
      split
      · rename_i shift found
        have isShift := List.mem_of_find?_eq_some found
        have covers : shift.covers c.toNat = true := by simpa using List.find?_some found
        have image : isBlank (Char.ofNat (shift.image c.toNat)) = false :=
          CaseTable.isBlank_image isShift covers
        rw [CaseTable.Shift.image] at image
        rw [image, CaseTable.isBlank_eq_inRanges]
        by_contra blank
        rw [CaseTable.covers_eq_false_of_blank isShift (by simpa using blank)] at covers
        cases covers
      · rw [Char.ofNat_toNat]

namespace Text

/-- White space can be left out before or after making a text upper case. -/
theorem filter_upper (text : Text) : (upper text).filter (fun c => !isBlank c) =
    upper (text.filter fun c => !isBlank c) := by
  induction text with
  | nil => rfl
  | cons c text ih =>
      have forms : (upper (c :: text)).filter (fun c => !isBlank c) =
          (upperChar c).filter (fun c => !isBlank c) ++ upper (text.filter fun c => !isBlank c) := by
        rw [← ih]
        exact List.filter_append _ _
      rw [forms, List.filter_cons]
      by_cases blank : isBlank c = true
      · have none : (upperChar c).filter (fun c => !isBlank c) = [] :=
          List.filter_eq_nil_iff.mpr fun d member => by simp [isBlank_of_mem_upperChar member, blank]
        rw [none, if_neg (by simp [blank]), List.nil_append]
      · have all : (upperChar c).filter (fun c => !isBlank c) = upperChar c :=
          List.filter_eq_self.mpr fun d member => by simp [isBlank_of_mem_upperChar member, blank]
        rw [all, if_pos (by simp [blank])]
        rfl

end Text

end Covenant
