import Covenant.Text.Blank
import Mathlib.Data.List.DropRight

/-!
# Trimming

Trimming takes white space away at both ends, so what is left begins and ends with characters
that are not blank.
-/

namespace Covenant.Text

theorem trimStart_blanks_append {blanks : Text} (allBlank : ∀ c ∈ blanks, isBlank c = true)
    (rest : Text) : trimStart (blanks ++ rest) = trimStart rest := by
  induction blanks with
  | nil => rfl
  | cons c blanks ih =>
      have more := ih fun other member => allBlank other (by simp [member])
      simpa [trimStart, List.dropWhile_cons, allBlank c (by simp)] using more

theorem trimStart_of_not_blank {c : Char} (notBlank : isBlank c = false) (rest : Text) :
    trimStart (c :: rest) = c :: rest := by
  simp [trimStart, notBlank]

theorem exists_blanks_append_trimStart (text : Text) :
    ∃ blanks : Text, (∀ c ∈ blanks, isBlank c = true) ∧ text = blanks ++ trimStart text :=
  ⟨text.takeWhile isBlank, fun _ member => List.mem_takeWhile_imp member,
    (List.takeWhile_append_dropWhile).symm⟩

theorem trimEnd_concat (text : Text) (c : Char) :
    trimEnd (text ++ [c]) = if isBlank c = true then trimEnd text else text ++ [c] := by
  induction text with
  | nil => rfl
  | cons d text ih =>
      by_cases blank : isBlank c = true
      · simp only [blank, if_true] at ih ⊢
        rw [List.cons_append, trimEnd, ih, trimEnd]
      · simp only [blank, Bool.false_eq_true, if_false] at ih ⊢
        rw [List.cons_append, trimEnd, ih]
        cases text <;> rfl

theorem trimEnd_eq_rdropWhile (text : Text) : trimEnd text = text.rdropWhile isBlank := by
  induction text using List.reverseRecOn with
  | nil => rfl
  | append_singleton text c ih => rw [trimEnd_concat, List.rdropWhile_concat, ih]

theorem trim_eq (text : Text) : trim text = (text.dropWhile isBlank).rdropWhile isBlank := by
  rw [trim, trimStart, trimEnd_eq_rdropWhile]

theorem mem_of_mem_trim {c : Char} {text : Text} (member : c ∈ trim text) : c ∈ text := by
  rw [trim_eq] at member
  exact (List.dropWhile_sublist isBlank).subset ((List.rdropWhile_prefix _ _).subset member)

theorem trimStart_append_cons (text : Text) {c : Char} (notBlank : isBlank c = false)
    (rest : Text) : trimStart (text ++ c :: rest) = trimStart text ++ c :: rest := by
  induction text with
  | nil => exact trimStart_of_not_blank notBlank rest
  | cons d text ih =>
      by_cases blank : isBlank d = true
      · simpa [trimStart, List.dropWhile_cons, blank] using ih
      · simp [trimStart, blank]

/-- Trimming at the end keeps the first character of a text if it is not blank. -/
theorem head?_trim (text : Text) : (trim text).head? = (trimStart text).head? := by
  rw [trim]
  cases kept : trimStart text with
  | nil => rfl
  | cons c rest =>
      have notBlank := List.head?_dropWhile_not isBlank text
      rw [← trimStart, kept] at notBlank
      rw [trimEnd]
      split
      · simp_all
      · rfl

theorem trimStart_trim (text : Text) : trimStart (trim text) = trim text := by
  rw [trim_eq]
  cases kept : (text.dropWhile isBlank).rdropWhile isBlank with
  | nil => rfl
  | cons c rest =>
      apply trimStart_of_not_blank
      obtain ⟨dropped, whole⟩ := List.rdropWhile_prefix isBlank (text.dropWhile isBlank)
      rw [kept, List.cons_append] at whole
      have first := List.head?_dropWhile_not isBlank text
      rw [← whole] at first
      simpa using first

@[simp]
theorem trim_trim (text : Text) : trim (trim text) = trim text := by
  rw [trim, trimStart_trim, trimEnd_eq_rdropWhile, trim_eq, List.rdropWhile_idempotent]

theorem trimEnd_append_cons (front : Text) {c : Char} (notBlank : isBlank c = false) (rest : Text) :
    trimEnd (front ++ c :: rest) = front ++ c :: trimEnd rest := by
  induction rest using List.reverseRecOn with
  | nil =>
      rw [trimEnd_concat, if_neg (by simp [notBlank])]
      rfl
  | append_singleton rest d ih =>
      rw [← List.cons_append, ← List.append_assoc, trimEnd_concat, trimEnd_concat, ih]
      split
      · rfl
      · rw [List.append_assoc, List.cons_append]

theorem trimEnd_of_blank {blanks : Text} (allBlank : ∀ c ∈ blanks, isBlank c = true) :
    trimEnd blanks = [] := by
  rw [trimEnd_eq_rdropWhile, List.rdropWhile_eq_nil_iff]
  exact allBlank

theorem trim_blanks_cons {blanks : Text} (allBlank : ∀ c ∈ blanks, isBlank c = true) {c : Char}
    (notBlank : isBlank c = false) (rest : Text) : trim (blanks ++ c :: rest) = c :: trimEnd rest := by
  rw [trim, trimStart_blanks_append allBlank, trimStart_of_not_blank notBlank]
  exact trimEnd_append_cons [] notBlank rest

theorem trimEnd_append_blanks {blanks : Text} (allBlank : ∀ c ∈ blanks, isBlank c = true)
    (text : Text) : trimEnd (text ++ blanks) = trimEnd text := by
  induction blanks using List.reverseRecOn with
  | nil => rw [List.append_nil]
  | append_singleton blanks c ih =>
      rw [← List.append_assoc, trimEnd_concat, if_pos (allBlank c (by simp))]
      exact ih fun other member => allBlank other (by simp [member])

theorem trim_blanks_append {blanks : Text} (allBlank : isAllBlank blanks = true) (text : Text) :
    trim (blanks ++ text) = trim text := by
  rw [trim, trim, trimStart_blanks_append (List.all_eq_true.mp allBlank)]

theorem trim_append_blanks {blanks : Text} (allBlank : isAllBlank blanks = true) (text : Text) :
    trim (text ++ blanks) = trim text := by
  have atEnd := List.all_eq_true.mp allBlank
  rw [trim, trim, trimStart, trimStart, List.dropWhile_append]
  split
  · rename_i noText
    rw [List.isEmpty_iff.mp noText, List.dropWhile_eq_nil_iff.mpr atEnd]
  · exact trimEnd_append_blanks atEnd _

theorem exists_blanks_trim_blanks (text : Text) :
    ∃ first last : Text, (∀ c ∈ first, isBlank c = true) ∧ (∀ c ∈ last, isBlank c = true) ∧
      text = first ++ (trim text ++ last) := by
  obtain ⟨first, firstBlank, whole⟩ := exists_blanks_append_trimStart text
  refine ⟨first, (trimStart text).rtakeWhile isBlank, firstBlank, fun c member => ?_, ?_⟩
  · exact List.mem_rtakeWhile_imp member
  · rw [trim, trimEnd_eq_rdropWhile, List.rdropWhile_append_rtakeWhile]
    exact whole

theorem mem_trim_of_not_blank {text : Text} {c : Char} (member : c ∈ text) (notBlank : isBlank c = false) :
    c ∈ trim text := by
  obtain ⟨first, last, firstBlank, lastBlank, whole⟩ := exists_blanks_trim_blanks text
  rw [whole] at member
  rcases List.mem_append.mp member with inFirst | member
  · rw [firstBlank c inFirst] at notBlank
    cases notBlank
  · refine (List.mem_append.mp member).resolve_right fun inLast => ?_
    rw [lastBlank c inLast] at notBlank
    cases notBlank

theorem isBlank_of_head?_trim {text : Text} {c : Char} (isHead : (trim text).head? = some c) :
    isBlank c = false := by
  have starts := List.head?_dropWhile_not isBlank (trim text)
  rw [← trimStart, trimStart_trim, isHead] at starts
  simpa using starts

theorem isBlank_of_getLast?_trim {text : Text} {c : Char} (isLast : (trim text).getLast? = some c) :
    isBlank c = false := by
  obtain ⟨front, isTrimmed⟩ := List.getLast?_eq_some_iff.mp isLast
  have kept : (trim text).rdropWhile isBlank = trim text := by
    rw [trim_eq, List.rdropWhile_idempotent]
  by_contra blank
  rw [isTrimmed, List.rdropWhile_concat, if_pos (by simpa using blank)] at kept
  have shorter := (List.rdropWhile_prefix isBlank front).length_le
  rw [kept, List.length_append, List.length_singleton] at shorter
  omega

/-- Trimming takes the white space around a word away. -/
theorem trim_around {first word last : Text} (firstBlank : ∀ c ∈ first, isBlank c = true)
    (lastBlank : ∀ c ∈ last, isBlank c = true) (filled : word ≠ [])
    (wordChars : ∀ c ∈ word, isBlank c = false) : trim (first ++ (word ++ last)) = word := by
  have start : trimStart (first ++ (word ++ last)) = word ++ last := by
    obtain ⟨c, tail, rfl⟩ := List.exists_cons_of_ne_nil filled
    rw [trimStart_blanks_append firstBlank]
    exact trimStart_of_not_blank (wordChars c List.mem_cons_self) _
  obtain ⟨init, c, rfl⟩ := (List.eq_nil_or_concat' word).resolve_left filled
  have notBlank := wordChars c (by simp)
  rw [trim, start, List.append_assoc, List.singleton_append, trimEnd_append_cons init notBlank,
    trimEnd_of_blank lastBlank]

section Written

/-! ## Texts written in several pieces -/

variable {α : Type}

/-- A text that is not empty and has no white space at its ends. -/
def IsTight (text : Text) : Prop :=
  (∃ c rest, text = c :: rest ∧ isBlank c = false) ∧
    ∃ rest c, text = rest ++ [c] ∧ isBlank c = false

theorem IsTight.trim {text : Text} (tight : IsTight text) : Text.trim text = text := by
  obtain ⟨⟨c, rest, starts, first⟩, front, d, ends, last⟩ := tight
  rw [Text.trim, starts, trimStart_of_not_blank first, ← starts, ends]
  exact trimEnd_append_cons front last []

/-- Pieces that are blank characters or texts without white space at their ends. -/
def IsTrimmable (source : α → Text) (blank : α → Bool) (pieces : List α) : Prop :=
  ∀ piece ∈ pieces, (blank piece = true ∧ ∃ c, source piece = [c] ∧ isBlank c = true) ∨
    (blank piece = false ∧ IsTight (source piece))

variable {source : α → Text} {blank : α → Bool} {pieces : List α}

theorem trimStart_flatMap (trimmable : IsTrimmable source blank pieces) :
    trimStart (pieces.flatMap source) = (pieces.dropWhile blank).flatMap source := by
  induction pieces with
  | nil => rfl
  | cons piece pieces ih =>
      have more := ih fun other member => trimmable other (by simp [member])
      rcases trimmable piece (by simp) with
        ⟨isBlank, c, written, blankChar⟩ | ⟨filled, ⟨c, rest, written, notBlank⟩, -⟩
      · rw [List.flatMap_cons, written, trimStart_blanks_append (by simpa using blankChar), more,
          List.dropWhile_cons_of_pos isBlank]
      · rw [List.dropWhile_cons_of_neg (by simp [filled]), List.flatMap_cons, written,
          List.cons_append, trimStart_of_not_blank notBlank]

theorem trimEnd_flatMap (trimmable : IsTrimmable source blank pieces) :
    trimEnd (pieces.flatMap source) = (pieces.rdropWhile blank).flatMap source := by
  induction pieces using List.reverseRecOn with
  | nil => rfl
  | append_singleton pieces piece ih =>
      have more := ih fun other member => trimmable other (by simp [member])
      rw [List.flatMap_append, List.flatMap_singleton, List.rdropWhile_concat]
      rcases trimmable piece (by simp) with
        ⟨isBlank, c, written, blankChar⟩ | ⟨filled, -, rest, c, written, notBlank⟩
      · rw [written, trimEnd_concat, if_pos blankChar, more, if_pos isBlank]
      · rw [written, ← List.append_assoc, trimEnd_concat, if_neg (by simp [notBlank]),
          if_neg (by simp [filled])]
        simp [written]

/-- Trimming a text that is written in pieces takes the blank pieces away at both ends. -/
theorem trim_flatMap (trimmable : IsTrimmable source blank pieces) :
    trim (pieces.flatMap source) =
      ((pieces.dropWhile blank).rdropWhile blank).flatMap source := by
  rw [trim, trimStart_flatMap trimmable]
  exact trimEnd_flatMap fun piece member =>
    trimmable piece ((List.dropWhile_sublist blank).subset member)

end Written

end Covenant.Text
