import Covenant.Proofs.Template.Bracket
import Covenant.Proofs.Text.Folded
import Covenant.Proofs.Text.Lower
import Covenant.Template.Numbering
import Mathlib.Data.List.Forall2

/-!
# Numbering markers

A marker is a word in double brackets, with white space allowed around the word.  The recogniser
tries the spellings one after the other; since a word ends where white space or a bracket stands,
at most one of them fits, so what is recognised can be described without an order of trials.
-/

namespace Covenant

namespace NumberingMarker

/-- A word in double brackets, with white space around it. -/
inductive Encloses (word : Text) : Text → Prop where
  | intro (first last : Text) (firstBlank : ∀ c ∈ first, isBlank c = true)
      (lastBlank : ∀ c ∈ last, isBlank c = true) :
      Encloses word ('[' :: '[' :: (first ++ (word ++ (last ++ [']', ']']))))

/-- A marker, its word in ASCII letters of any case. -/
def Written (marker : NumberingMarker) (source : Text) : Prop :=
  ∃ word, (Text.lower word, marker) ∈ spellings ∧ (∀ c ∈ word, c.toNat < 0x80) ∧
    Encloses word source

/-- What the recogniser takes for a marker: special forms of letters count as well. -/
def Accepted (source : Text) : Prop :=
  ∃ spelling ∈ spellings.map (·.1), ∃ word, Text.Spells spelling word ∧ Encloses word source

/-- The words of all markers in a text are in ASCII letters. -/
def AsciiMarkers (text : Text) : Prop :=
  ∀ before word source after, text = before ++ (source ++ after) →
    (∃ spelling ∈ spellings.map (·.1), Text.Spells spelling word) → Encloses word source →
      ∀ c ∈ word, c.toNat < 0x80

/-! ### Words -/

/-- The characters of which words are made up. -/
def letters : Text := "abcdefghijklmnopqrstuvwxyz_"

theorem mem_letters {spelling : Text} (member : spelling ∈ spellings.map (·.1)) :
    ∀ letter ∈ spelling, letter ∈ letters := by
  have all : (spellings.map (·.1)).all (fun spelling => spelling.all letters.contains) = true := by
    decide +kernel
  intro letter inSpelling
  exact List.contains_iff_mem.mp
    (List.all_eq_true.mp (List.all_eq_true.mp all spelling member) letter inSpelling)

theorem ne_nil_of_mem {spelling : Text} (member : spelling ∈ spellings.map (·.1)) :
    spelling ≠ [] := by
  have all : ∀ spelling ∈ spellings.map (·.1), spelling ≠ [] := by decide +kernel
  exact all spelling member

/-- Letters beyond ASCII that count as forms of `i`, `s` or `k`. -/
def specialForms : Text := ['ı', 'İ', 'ſ', '\u212A']

def formsOf (letter : Char) : Text := letter :: letter.toUpper :: specialForms

theorem mem_formsOf {letter c : Char} (isForm : Text.isFormOf letter c = true) :
    c ∈ formsOf letter := by
  simp only [Text.isFormOf, Bool.or_eq_true, Bool.and_eq_true, decide_eq_true_eq] at isForm
  simp only [formsOf, specialForms, List.mem_cons, List.not_mem_nil, or_false]
  tauto

/-- A character of a word is neither blank nor a bracket. -/
def IsWordChar (c : Char) : Prop := isBlank c = false ∧ isBracket c = false

theorem isWordChar_of_spells {spelling word : Text} (member : spelling ∈ spellings.map (·.1))
    (spells : Text.Spells spelling word) : ∀ c ∈ word, IsWordChar c := by
  have all : letters.all (fun letter => (formsOf letter).all fun c => !isBlank c && !isBracket c) =
      true := by
    decide +kernel
  intro c inWord
  obtain ⟨letter, inSpelling, isForm⟩ := spells.exists_letter inWord
  have forms := List.all_eq_true.mp all letter (mem_letters member letter inSpelling)
  simpa [IsWordChar] using List.all_eq_true.mp forms c (mem_formsOf isForm)

theorem isFormOf_iff_of_ascii {letter c : Char} (isLetter : letter ∈ letters)
    (ascii : c.toNat < 0x80) : Text.isFormOf letter c = true ↔ c.toLower = letter := by
  have all : letters.all (fun letter => (List.range 0x80).all fun code =>
      Text.isFormOf letter (Char.ofNat code) == decide ((Char.ofNat code).toLower = letter)) =
        true := by
    decide +kernel
  have own := List.all_eq_true.mp (List.all_eq_true.mp all letter isLetter) c.toNat
    (List.mem_range.mpr ascii)
  rw [Char.ofNat_toNat, beq_iff_eq] at own
  rw [own, decide_eq_true_eq]

/-- In ASCII letters a word has a spelling if that is its lower-case form. -/
theorem spells_iff_of_ascii {spelling word : Text} (isLetters : ∀ letter ∈ spelling, letter ∈ letters)
    (ascii : ∀ c ∈ word, c.toNat < 0x80) :
    Text.Spells spelling word ↔ Text.lower word = spelling := by
  rw [Text.lower_of_ascii ascii]
  induction word generalizing spelling with
  | nil =>
      constructor
      · rintro ⟨⟩
        rfl
      · rintro rfl
        exact .nil
  | cons c word ih =>
      cases spelling with
      | nil => exact ⟨nofun, nofun⟩
      | cons letter spelling =>
          have later := @ih spelling (fun other member => isLetters other (by simp [member]))
            (fun other member => ascii other (by simp [member]))
          have own := isFormOf_iff_of_ascii (isLetters letter (by simp)) (ascii c (by simp))
          rw [Text.Spells, List.forall₂_cons, own, List.map_cons, List.cons.injEq, ← later,
            Text.Spells]

theorem ofWord_of_mem {word : Text} {marker : NumberingMarker}
    (member : (Text.lower word, marker) ∈ spellings) : ofWord word = marker := by
  have all : ∀ pair ∈ spellings, (spellings.lookup pair.1).getD .reset = pair.2 := by
    decide +kernel
  exact all _ member

/-- Without special forms of letters all markers are in ASCII letters. -/
theorem asciiMarkers_of_usual {text : Text} (usual : ∀ c ∈ text, c ∉ specialForms) :
    AsciiMarkers text := by
  have small : letters.all (fun letter => letter.toNat < 0x80 && letter.toUpper.toNat < 0x80) =
      true := by
    decide +kernel
  rintro before word _ after rfl ⟨spelling, member, spells⟩ ⟨first, last, -, -⟩ c inWord
  obtain ⟨letter, inSpelling, isForm⟩ := spells.exists_letter inWord
  have isSmall := List.all_eq_true.mp small letter (mem_letters member letter inSpelling)
  rw [Bool.and_eq_true, decide_eq_true_eq, decide_eq_true_eq] at isSmall
  rcases List.mem_cons.mp (mem_formsOf isForm) with rfl | isOther
  · exact isSmall.1
  · rcases List.mem_cons.mp isOther with rfl | special
    · exact isSmall.2
    · exact absurd special (usual c (by simp [inWord]))

/-! ### Recognition -/

theorem Encloses.ne_nil {word source : Text} (encloses : Encloses word source) : source ≠ [] := by
  cases encloses
  simp

theorem trimStart_word {word blanks : Text} (allBlank : ∀ c ∈ blanks, isBlank c = true)
    (filled : word ≠ []) (wordChars : ∀ c ∈ word, IsWordChar c) (rest : Text) :
    Text.trimStart (blanks ++ (word ++ rest)) = word ++ rest := by
  obtain ⟨c, word, rfl⟩ := List.exists_cons_of_ne_nil filled
  rw [Text.trimStart_blanks_append allBlank]
  exact Text.trimStart_of_not_blank (wordChars c (by simp)).1 _

theorem Spells.length_eq {spelling word : Text} (spells : Text.Spells spelling word) :
    spelling.length = word.length := List.Forall₂.length_eq spells

theorem Spells.ne_nil {spelling word : Text} (member : spelling ∈ spellings.map (·.1))
    (spells : Text.Spells spelling word) : word ≠ [] := by
  rintro rfl
  cases spells
  exact ne_nil_of_mem member rfl

theorem spelled?_eq_some_iff {spelling text rest : Text} {marker : NumberingMarker}
    (member : spelling ∈ spellings.map (·.1)) :
    spelled? text spelling = some (marker, rest) ↔
      ∃ word source, Text.Spells spelling word ∧ Encloses word source ∧ text = source ++ rest ∧
        marker = ofWord word := by
  constructor
  · intro read
    simp only [spelled?, Option.bind_eq_bind, Option.bind_eq_some_iff, Option.some.injEq,
      Prod.mk.injEq] at read
    obtain ⟨afterOpening, opened, afterWord, isWord, _, closed, rfl, rfl⟩ := read
    obtain ⟨first, firstBlank, inFront⟩ := Text.exists_blanks_append_trimStart afterOpening
    obtain ⟨word, spells, start⟩ := Text.afterWord?_eq_some_iff.mp isWord
    obtain ⟨last, lastBlank, behind⟩ := Text.exists_blanks_append_trimStart afterWord
    rw [Text.afterOpening?_eq_some_iff] at opened
    rw [Text.afterClosing?_eq_some_iff] at closed
    refine ⟨word, _, spells, .intro first last firstBlank lastBlank, ?_, ?_⟩
    · rw [opened, inFront, start, behind, closed]
      simp
    · rw [start, Spells.length_eq spells, List.take_left]
  · rintro ⟨word, source, spells, ⟨first, last, firstBlank, lastBlank⟩, rfl, rfl⟩
    have atWord := trimStart_word firstBlank (Spells.ne_nil member spells)
      (isWordChar_of_spells member spells) (last ++ ']' :: ']' :: rest)
    have atClosing : Text.trimStart (last ++ ']' :: ']' :: rest) = ']' :: ']' :: rest := by
      rw [Text.trimStart_blanks_append lastBlank]
      exact Text.trimStart_of_not_blank (by decide) _
    have afterWord : Text.afterWord? spelling (word ++ (last ++ ']' :: ']' :: rest)) =
        some (last ++ ']' :: ']' :: rest) :=
      Text.afterWord?_eq_some_iff.mpr ⟨word, spells, rfl⟩
    simp only [spelled?, List.cons_append, List.append_assoc, List.nil_append, Text.afterOpening?,
      Option.bind_eq_bind, Option.bind_some, atWord, afterWord, atClosing, Text.afterClosing?,
      Spells.length_eq spells, List.take_left]

def mayBeInWord (c : Char) : Bool := !isBlank c && !isBracket c

theorem length_takeWhile_word {word last : Text} (wordChars : ∀ c ∈ word, IsWordChar c)
    (lastBlank : ∀ c ∈ last, isBlank c = true) (rest : Text) :
    ((word ++ (last ++ ']' :: ']' :: rest)).takeWhile mayBeInWord).length = word.length := by
  have inWord : ∀ c ∈ word, mayBeInWord c = true := by
    intro c member
    simp [mayBeInWord, (wordChars c member).1, (wordChars c member).2]
  rw [List.takeWhile_append_of_pos inWord]
  cases last with
  | nil => simp [mayBeInWord, isBracket]
  | cons c last => simp [mayBeInWord, lastBlank c (by simp)]

/-- What stands at the start of a text can be read in one way only. -/
theorem Encloses.unique {word other source sameSource rest sameRest : Text}
    (wordChars : ∀ c ∈ word, IsWordChar c) (otherChars : ∀ c ∈ other, IsWordChar c)
    (filled : word ≠ []) (otherFilled : other ≠ []) (encloses : Encloses word source)
    (enclosesOther : Encloses other sameSource) (same : source ++ rest = sameSource ++ sameRest) :
    word = other ∧ source = sameSource ∧ rest = sameRest := by
  obtain ⟨first, last, firstBlank, lastBlank⟩ := encloses
  obtain ⟨otherFirst, otherLast, otherFirstBlank, otherLastBlank⟩ := enclosesOther
  simp only [List.cons_append, List.cons.injEq, List.append_assoc, true_and,
    List.nil_append] at same
  have sameStart := congrArg Text.trimStart same
  rw [trimStart_word firstBlank filled wordChars,
    trimStart_word otherFirstBlank otherFilled otherChars] at sameStart
  obtain ⟨rfl, sameLast⟩ := List.append_inj sameStart <|
    (length_takeWhile_word wordChars lastBlank rest).symm.trans <|
      (congrArg (fun text => (text.takeWhile mayBeInWord).length) sameStart).trans <|
        length_takeWhile_word otherChars otherLastBlank sameRest
  have afterBlanks := congrArg Text.trimStart sameLast
  rw [Text.trimStart_blanks_append lastBlank, Text.trimStart_blanks_append otherLastBlank,
    Text.trimStart_of_not_blank (by decide), Text.trimStart_of_not_blank (by decide)] at afterBlanks
  obtain rfl : rest = sameRest := by simpa using afterBlanks
  obtain rfl : last = otherLast := by simpa using sameLast
  obtain rfl : first = otherFirst := by simpa using same
  exact ⟨rfl, rfl, rfl⟩

theorem findSome?_spelled?_eq_some_iff {tried : List Text}
    (known : ∀ spelling ∈ tried, spelling ∈ spellings.map (·.1)) {text rest : Text}
    {marker : NumberingMarker} :
    tried.findSome? (spelled? text) = some (marker, rest) ↔
      ∃ spelling ∈ tried, spelled? text spelling = some (marker, rest) := by
  constructor
  · intro read
    obtain ⟨before, spelling, after, rfl, found, -⟩ := List.findSome?_eq_some_iff.mp read
    exact ⟨spelling, by simp, found⟩
  · rintro ⟨spelling, member, found⟩
    cases first : tried.findSome? (spelled? text) with
    | none => rw [List.findSome?_eq_none_iff.mp first spelling member] at found; simp at found
    | some pair =>
        obtain ⟨other, otherRest⟩ := pair
        obtain ⟨before, otherSpelling, after, rfl, otherFound, -⟩ :=
          List.findSome?_eq_some_iff.mp first
        have isKnown := known spelling member
        have otherKnown := known otherSpelling (by simp)
        obtain ⟨word, source, spells, encloses, rfl, rfl⟩ := (spelled?_eq_some_iff isKnown).mp found
        obtain ⟨otherWord, otherSource, otherSpells, otherEncloses, same, rfl⟩ :=
          (spelled?_eq_some_iff otherKnown).mp otherFound
        obtain ⟨rfl, -, rfl⟩ := Encloses.unique (isWordChar_of_spells isKnown spells)
          (isWordChar_of_spells otherKnown otherSpells) (Spells.ne_nil isKnown spells)
          (Spells.ne_nil otherKnown otherSpells) encloses otherEncloses same
        rfl

end NumberingMarker

end Covenant
