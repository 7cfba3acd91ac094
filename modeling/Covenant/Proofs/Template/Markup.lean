import Covenant.Proofs.Template.LeftAlone
import Covenant.Proofs.Template.Structural
import Covenant.Proofs.Text.Lower

/-!
# Markup of other passes among placeholders

The passes for loops, conditional blocks and numbering take their tags as wholes.  Placeholders tell
such a tag by the beginning of its name, in lower case.  The two agree on the tags of loops.  In the
tags of conditional blocks they agree if no white space stands in front of the colon, and in all tags
only if the word is the same as the known one in lower case, which the dotless and the dotted i and
the long s are not.  Every other tag is taken for a placeholder.
-/

namespace Covenant

open Loop (Symbol)

/-! ### Lower case in front of a colon -/

namespace Text

theorem sigma_not_mem_of_spells {word letters : Text}
    (structural : word.all structuralChars.contains = true) (spells : Spells word letters) :
    'Σ' ∉ letters := by
  have noForm : structuralChars.all (fun d => !isFormOf d 'Σ') = true := by decide
  intro member
  obtain ⟨d, inWord, isForm⟩ := spells.exists_letter member
  have known := List.contains_iff_mem.mp (List.all_eq_true.mp structural d inWord)
  have notForm := List.all_eq_true.mp noForm d known
  rw [isForm] at notForm
  cases notForm

/-- The lower case of letters that gives as many letters and a colon is these letters. -/
theorem flatMap_lowerChar_eq {word letters more : Text}
    (structural : word.all structuralChars.contains = true) (sameLength : word.length = letters.length)
    (starts : word ++ [':'] <+: letters.flatMap lowerChar ++ more) : letters.flatMap lowerChar = word := by
  induction word generalizing letters with
  | nil =>
      obtain rfl := List.eq_nil_of_length_eq_zero sameLength.symm
      rfl
  | cons d word ih =>
      obtain ⟨-, later⟩ := Bool.and_eq_true_iff.mp structural
      cases letters with
      | nil => cases sameLength
      | cons c letters =>
          obtain ⟨e, rest, lowered, isRest⟩ := exists_lowerChar c
          simp only [List.flatMap_cons, lowered, List.cons_append, List.append_assoc,
            List.cons_prefix_cons] at starts
          obtain ⟨rfl, starts⟩ := starts
          rcases isRest with rfl | rfl
          · rw [List.flatMap_cons, lowered, ih later (Nat.succ_inj.mp sameLength) starts]
            rfl
          · -- A dot above is neither a letter of the word nor the colon.
            cases word with
            | nil => exact absurd (List.cons_prefix_cons.mp starts).1 (by decide)
            | cons x word =>
                have isDot := (List.cons_prefix_cons.mp starts).1
                have known := (Bool.and_eq_true_iff.mp later).1
                rw [isDot] at known
                exact absurd known (by decide)

theorem exists_lower_eq_of_prefix {word text : Text}
    (structural : word.all structuralChars.contains = true) (starts : word ++ [':'] <+: lower text) :
    ∃ letters rest, text = letters ++ ':' :: rest ∧ lower letters = word := by
  have withColon : (word ++ [':']).all structuralChars.contains = true := by
    rw [List.all_append, structural]
    decide
  obtain ⟨first, rest, rfl, spells⟩ := exists_spells_of_prefix withColon starts
  obtain ⟨letters, colon, rfl, spellsWord, spellsColon⟩ := spells.exists_of_append
  obtain rfl : colon = [':'] := by
    cases spellsColon with
    | cons isForm none =>
        cases none
        simpa [isFormOf, show ':'.toUpper = ':' from rfl] using isForm
  have noSigma := sigma_not_mem_of_spells structural spellsWord
  refine ⟨letters, rest, by simp, ?_⟩
  rw [lower, List.append_assoc, lowerAfter_append noSigma] at starts
  rw [lower_eq_flatMap noSigma, flatMap_lowerChar_eq structural spellsWord.length_eq starts]

theorem lower_append_colon {word letters : Text} (structural : word.all structuralChars.contains = true)
    (lowered : lower letters = word) (rest : Text) : word ++ [':'] <+: lower (letters ++ ':' :: rest) := by
  have noSigma := sigma_not_mem_of_spells structural (spells_of_lower_eq structural lowered)
  refine ⟨lowerAfter (':' :: (letters.reverse ++ [])) rest, ?_⟩
  rw [lower, lowerAfter_append noSigma, ← lower_eq_flatMap noSigma, lowered, lowerAfter,
    if_neg (by decide), List.append_assoc]
  rfl

end Text

/-! ### Tags -/

/-- What the pass for conditional blocks, that for loops or that for numbering takes as a whole. -/
def IsMarkup (source : Text) : Prop :=
  (∃ form, Conditional.recognise none source = some (form, source.length)) ∨
    (∃ form, Loop.recognise none source = some (form, source.length)) ∨
      ∃ before marker, NumberingMarker.recognise before source = some (marker, source.length)

/-- A tag that placeholders know as well: that of a loop, one whose word is that of a conditional
block in lower case and has the colon right behind it, or one whose word is that of a numbering
marker in lower case. -/
inductive IsPlainTag : Text → Prop where
  | loop {source : Text} (form : TagForm)
      (recognised : Loop.recognise none source = some (form, source.length)) : IsPlainTag source
  | conditional (isOpen : Bool) (blanks letters argument : Text)
      (allBlank : ∀ c ∈ blanks, isBlank c = true)
      (lowered : Text.lower letters = Conditional.wordOf isOpen) :
      IsPlainTag ('[' :: '[' :: (blanks ++ (letters ++ ':' :: (argument ++ [']', ']']))))
  | marker (word : Text) {source : Text} (encloses : NumberingMarker.Encloses word source)
      (known : Text.lower word ∈ NumberingMarker.spellings.map (·.1)) : IsPlainTag source

namespace Placeholder

variable {content source : Text}

theorem structural_wordOf (isOpen : Bool) :
    (Conditional.wordOf isOpen).all Text.structuralChars.contains = true := by
  cases isOpen <;> decide

theorem mem_structuralNames_iff {word : Text} :
    word ∈ structuralNames ↔ word ∈ NumberingMarker.spellings.map (·.1) := by
  have known : ∀ name ∈ structuralNames, name ∈ NumberingMarker.spellings.map (·.1) := by
    decide +kernel
  have named : ∀ name ∈ NumberingMarker.spellings.map (·.1), name ∈ structuralNames := by
    decide +kernel
  exact ⟨known word, named word⟩

theorem isStructural_iff : isStructural content = true ↔
    Text.lower (Text.trim content) ∈ structuralNames ∨
      ∃ start ∈ structuralStarts, start <+: Text.lower (Text.trim content) := by
  simp only [isStructural, Bool.or_eq_true, List.any_eq_true, List.isPrefixOf_iff_prefix,
    List.contains_iff_mem]

/-- A placeholder that begins with two brackets is one in double brackets. -/
theorem eq_slot_of_recognise {place : Option Char} {rest : Text} {placeholder : Placeholder}
    {length : Nat} (recognised : recognise place rest = some (placeholder, length))
    (opens : ['[', '['] <+: rest.take length) :
    rest.take length = (Symbol.slot placeholder.content).source ∧
      BracketFree placeholder.content := by
  obtain ⟨behind, rfl⟩ : ['[', '['] <+: rest := opens.trans (List.take_prefix length rest)
  have single : enclosed? "[" "]" inSquareBrackets ('[' :: '[' :: behind) = none := by
    simp [enclosed?, List.isPrefixOf, inSquareBrackets, isBracket]
  change recognise none ('[' :: '[' :: behind) = _ at recognised
  rw [recognise_opening, single, Option.map_none, Option.or_none, Option.map_eq_some_iff] at recognised
  obtain ⟨⟨content, size⟩, double, same⟩ := recognised
  obtain ⟨rfl, rfl⟩ := Prod.mk.inj same
  obtain ⟨source, after, ⟨-, allowed, rfl⟩, whole, rfl⟩ :=
    (enclosed?_double_eq_some_iff fun c allowed => isBracket_of_inSquareBrackets c allowed).mp double
  refine ⟨?_, fun c member => isBracket_of_inSquareBrackets c (allowed c member)⟩
  change List.take _ ('[' :: '[' :: behind) = _
  rw [whole, List.take_left]

/-- Where a placeholder is markup as a whole, it stands in double brackets. -/
theorem opens_of_isMarkup {place : Option Char} {rest : Text} {placeholder : Placeholder}
    {length : Nat} (recognised : recognise place rest = some (placeholder, length))
    (isMarkup : IsMarkup (rest.take length)) : ['[', '['] <+: rest.take length := by
  rcases isMarkup with ⟨form, block⟩ | ⟨form, loop⟩ | ⟨before, marker, numbered⟩
  · obtain ⟨_, behind, ⟨blanks, letters, blanksAfter, -, -, -, -⟩, whole, -⟩ :=
      Conditional.recognise_eq_some_iff.mp block
    rw [whole]
    exact List.prefix_append ['[', '['] _
  · obtain ⟨_, behind, ⟨blanks, blanksAfter, last, -, -, -, -⟩, whole, -⟩ :=
      Loop.recognise_eq_some_iff.mp loop
    rw [whole]
    exact List.prefix_append ['[', '['] _
  · obtain ⟨source, behind, taken, whole, -⟩ := NumberingMarker.taken_of_recognise numbered
    rw [whole]
    have opens {source : Text} (accepted : NumberingMarker.Accepted source) (more : Text) :
        ['[', '['] <+: source ++ more := by
      obtain ⟨-, -, -, -, first, last, -, -⟩ := accepted
      exact List.prefix_append ['[', '['] _
    cases taken with
    | marker accepted => exact opens accepted behind
    | @line first source last lineEnd firstSpace accepted =>
        cases first with
        | nil =>
            rw [List.nil_append, List.append_assoc]
            exact opens accepted _
        | cons c first =>
            have inRest : c :: (first ++ (source ++ (last ++ lineEnd))) ++ behind <+: rest := by
              rw [← List.cons_append, ← whole]
              exact List.take_prefix length rest
            obtain ⟨later, rfl⟩ := inRest
            have plain : isDelimiter c = false := by
              have space := firstSpace c List.mem_cons_self
              simp only [NumberingMarker.isSpaceOrTab, Bool.or_eq_true, decide_eq_true_eq] at space
              rcases space with rfl | rfl <;> decide
            have none := recognise_of_not_delimiter plain
              (first ++ (source ++ (last ++ lineEnd)) ++ behind ++ later)
            rw [← List.cons_append, ← List.cons_append] at none
            cases none.symm.trans recognised

/-! ### Structural names -/

theorem eq_of_slot_eq {inner : Text}
    (same : (Symbol.slot content).source = '[' :: '[' :: (inner ++ [']', ']'])) : content = inner := by
  simpa [Symbol.source] using same

/-- A tag at the start of a text that is as long as the text is the whole of it. -/
theorem eq_of_same_length {text source rest : Text} (whole : text = source ++ rest)
    (sameLength : text.length = source.length) : text = source := by
  have lengths := congrArg List.length whole
  rw [List.length_append, sameLength] at lengths
  rw [whole, List.eq_nil_of_length_eq_zero (show rest.length = 0 by omega), List.append_nil]

theorem accepted_of_recognise {before : Option Char} {marker : NumberingMarker}
    (free : BracketFree content) (recognised : NumberingMarker.recognise before
      (Symbol.slot content).source = some (marker, (Symbol.slot content).source.length)) :
    NumberingMarker.Accepted (Symbol.slot content).source := by
  obtain ⟨source, rest, taken, whole, length⟩ := NumberingMarker.taken_of_recognise recognised
  replace whole := eq_of_same_length whole length
  cases taken with
  | marker accepted =>
      rw [whole]
      exact accepted
  | @line first source last lineEnd firstSpace accepted =>
      cases first with
      | nil =>
          have slotBracketed : IsBracketed (Symbol.slot content).source := ⟨content, free, rfl⟩
          have same := (slotBracketed.append_inj accepted.isBracketed
            (show (Symbol.slot content).source ++ [] = source ++ (last ++ lineEnd) by
              rw [List.append_nil, whole, List.nil_append])).1
          rw [same]
          exact accepted
      | cons c first =>
          have isOpening := (List.cons.inj whole).1
          have space := firstSpace c List.mem_cons_self
          rw [← isOpening] at space
          exact absurd space (by decide)

theorem trim_of_encloses {word : Text} (filled : word ≠ []) (wordChars : ∀ c ∈ word, isBlank c = false)
    (encloses : NumberingMarker.Encloses word (Symbol.slot content).source) :
    Text.trim content = word := by
  generalize isSource : (Symbol.slot content).source = source at encloses
  obtain ⟨first, last, firstBlank, lastBlank⟩ := encloses
  have isContent : content = first ++ (word ++ last) :=
    eq_of_slot_eq (by rw [isSource, List.append_assoc, List.append_assoc])
  rw [isContent, Text.trim_around firstBlank lastBlank filled wordChars]

/-- A tag that placeholders know is structural. -/
theorem isStructural_of_isPlainTag (plain : IsPlainTag (Symbol.slot content).source) :
    isStructural content = true := by
  rw [isStructural_iff]
  generalize isSource : (Symbol.slot content).source = source at plain
  cases plain with
  | loop form recognised =>
      obtain ⟨tag, rest, isTag, whole, length⟩ := Loop.recognise_eq_some_iff.mp recognised
      rw [eq_of_same_length whole length] at isSource
      obtain ⟨blanks, blanksAfter, last, allBlank, -, -, -⟩ := isTag
      have isContent : content =
          blanks ++ Loop.markOf form.isOpen :: (blanksAfter ++ (form.argument ++ last)) :=
        eq_of_slot_eq (by rw [isSource]; simp)
      rw [isContent, Text.trim_blanks_cons allBlank (Loop.not_isBlank_markOf form.isOpen)]
      refine .inr ⟨[Loop.markOf form.isOpen], ?_, ?_⟩
      · cases form.isOpen <;> decide
      · cases form.isOpen
        · exact ⟨_, rfl⟩
        · exact ⟨_, rfl⟩
  | conditional isOpen blanks letters argument allBlank lowered =>
      have isContent : content = blanks ++ (letters ++ ':' :: argument) :=
        eq_of_slot_eq (by rw [isSource]; simp)
      have spells := Text.spells_of_lower_eq (structural_wordOf isOpen) lowered
      have trimmed : Text.trim content = letters ++ ':' :: Text.trimEnd argument := by
        rw [isContent, Text.trim, Conditional.trimStart_word allBlank spells,
          Text.trimEnd_append_cons letters (by decide)]
      rw [trimmed]
      refine .inr ⟨Conditional.wordOf isOpen ++ [':'], ?_,
        Text.lower_append_colon (structural_wordOf isOpen) lowered _⟩
      cases isOpen <;> decide
  | marker word encloses known =>
      rw [← isSource] at encloses
      have structural : (Text.lower word).all Text.structuralChars.contains = true := by
        have all : ∀ spelling ∈ NumberingMarker.spellings.map (·.1),
            spelling.all Text.structuralChars.contains = true := by
          decide +kernel
        exact all _ known
      have spells := Text.spells_of_lower_eq structural rfl
      have wordChars := NumberingMarker.isWordChar_of_spells known spells
      rw [trim_of_encloses (NumberingMarker.Spells.ne_nil known spells)
        (fun c member => (wordChars c member).1) encloses]
      exact .inl (mem_structuralNames_iff.mpr known)

/-- A structural token is a plain tag, or its name begins like that of a loop or a list. -/
theorem isPlainTag_or_of_isStructural (structural : isStructural content = true) :
    IsPlainTag (Symbol.slot content).source ∨
      ∃ start ∈ (["#", "/", "list:", "lijst:"] : List Text),
        start <+: Text.lower (Text.trim content) := by
  obtain ⟨first, last, firstBlank, lastBlank, whole⟩ := Text.exists_blanks_trim_blanks content
  have block (isOpen : Bool)
      (starts : Conditional.wordOf isOpen ++ [':'] <+: Text.lower (Text.trim content)) :
      IsPlainTag (Symbol.slot content).source := by
    obtain ⟨letters, rest, isTrimmed, lowered⟩ :=
      Text.exists_lower_eq_of_prefix (structural_wordOf isOpen) starts
    have written : (Symbol.slot content).source =
        '[' :: '[' :: (first ++ (letters ++ ':' :: ((rest ++ last) ++ [']', ']']))) := by
      conv_lhs => rw [whole, isTrimmed]
      simp [Symbol.source]
    rw [written]
    exact .conditional isOpen first letters (rest ++ last) firstBlank lowered
  rcases isStructural_iff.mp structural with isName | ⟨start, isStart, starts⟩
  · have encloses : NumberingMarker.Encloses (Text.trim content) (Symbol.slot content).source := by
      have written : (Symbol.slot content).source =
          '[' :: '[' :: (first ++ (Text.trim content ++ (last ++ [']', ']']))) := by
        conv_lhs => rw [whole]
        simp [Symbol.source]
      rw [written]
      exact .intro first last firstBlank lastBlank
    exact .inl (.marker _ encloses (mem_structuralNames_iff.mp isName))
  · simp only [structuralStarts, List.mem_cons, List.not_mem_nil, or_false] at isStart
    rcases isStart with rfl | rfl | rfl | rfl | rfl | rfl
    · exact .inl (block true starts)
    · exact .inl (block false starts)
    all_goals exact .inr ⟨_, by simp, starts⟩

/-- The first letters of the words in tags of conditional blocks and numbering. -/
def firstLetters : Text := "ieasrn"

theorem not_isBlank_of_isFormOf {letter c : Char} (first : letter ∈ firstLetters)
    (isForm : Text.isFormOf letter c = true) : isBlank c = false := by
  have all : firstLetters.all (fun letter =>
      (NumberingMarker.formsOf letter).all fun c => !isBlank c) = true := by
    decide +kernel
  simpa using List.all_eq_true.mp (List.all_eq_true.mp all letter first) c
    (NumberingMarker.mem_formsOf isForm)

/-- Markup that is no loop has a name that begins with the first letter of a word. -/
theorem exists_firstLetter (free : BracketFree content) (isMarkup : IsMarkup (Symbol.slot content).source) :
    IsPlainTag (Symbol.slot content).source ∨
      ∃ c rest, Text.trim content = c :: rest ∧
        ∃ letter ∈ firstLetters, Text.isFormOf letter c = true := by
  rcases isMarkup with ⟨form, block⟩ | ⟨form, loop⟩ | ⟨before, marker, numbered⟩
  · obtain ⟨tag, rest, isTag, whole, length⟩ := Conditional.recognise_eq_some_iff.mp block
    replace whole := eq_of_same_length whole length
    obtain ⟨letter, word, isWord, first⟩ : ∃ letter word,
        Conditional.wordOf form.isOpen = letter :: word ∧ letter ∈ firstLetters := by
      cases form.isOpen
      · exact ⟨'e', ['n', 'd', 'i', 'f'], rfl, by decide⟩
      · exact ⟨'i', ['f'], rfl, by decide⟩
    rw [isWord] at isTag
    obtain ⟨blanks, _, blanksAfter, allBlank, spells, -, -⟩ := isTag
    cases spells with
    | @cons _ c _ letters isForm spells =>
        have isContent : content =
            blanks ++ c :: (letters ++ (blanksAfter ++ ':' :: form.argument)) :=
          eq_of_slot_eq (by rw [whole]; simp)
        exact .inr ⟨c, _, by rw [isContent, Text.trim_blanks_cons allBlank
          (not_isBlank_of_isFormOf first isForm)], letter, first, isForm⟩
  · exact .inl (.loop form loop)
  · obtain ⟨spelling, known, word, spells, encloses⟩ := accepted_of_recognise free numbered
    have wordChars := NumberingMarker.isWordChar_of_spells known spells
    have trimmed := trim_of_encloses (NumberingMarker.Spells.ne_nil known spells)
      (fun c member => (wordChars c member).1) encloses
    have heads : ∀ spelling ∈ NumberingMarker.spellings.map (·.1),
        spelling.head?.any firstLetters.contains = true := by
      decide +kernel
    have first := heads spelling known
    cases spells with
    | nil => cases first
    | cons isForm spells => exact .inr ⟨_, _, trimmed, _, List.contains_iff_mem.mp first, isForm⟩

theorem isPlainTag_of_isStructural (free : BracketFree content)
    (isMarkup : IsMarkup (Symbol.slot content).source) (structural : isStructural content = true) :
    IsPlainTag (Symbol.slot content).source := by
  rcases isPlainTag_or_of_isStructural structural with plain | ⟨start, isStart, starts⟩
  · exact plain
  rcases exists_firstLetter free isMarkup with plain | ⟨c, rest, trimmed, letter, first, isForm⟩
  · exact plain
  -- No letter begins both a word of markup and the name of a list, and none is the mark of a loop.
  have apart : firstLetters.all (fun letter => (NumberingMarker.formsOf letter).all fun c =>
      (['#', '/', 'l'] : Text).all fun mark => !Text.isFormOf mark c) = true := by
    decide +kernel
  have starting : ∀ start ∈ (["#", "/", "list:", "lijst:"] : List Text),
      start.all Text.structuralChars.contains = true ∧
        start.head?.any (['#', '/', 'l'] : Text).contains = true := by
    decide +kernel
  obtain ⟨structuralChars, isMark⟩ := starting start isStart
  obtain ⟨letters, behind, isTrimmed, spells⟩ := Text.exists_spells_of_prefix structuralChars starts
  cases spells with
  | nil => cases isMark
  | cons isMarkForm spells =>
      rw [trimmed, List.cons_append] at isTrimmed
      obtain ⟨rfl, -⟩ := List.cons.inj isTrimmed
      have notForm := List.all_eq_true.mp (List.all_eq_true.mp (List.all_eq_true.mp apart letter first)
        c (NumberingMarker.mem_formsOf isForm)) _ (List.contains_iff_mem.mp isMark)
      rw [isMarkForm] at notForm
      cases notForm

end Placeholder

/-- A placeholder that is markup of another pass as a whole is left alone exactly if it is a plain
tag. -/
theorem Placeholder.isLeftAlone_iff_isPlainTag {text source : Text}
    {before after : List (Piece Placeholder)} {placeholder : Placeholder}
    (isCut : Placeholder.pieces text = before ++ .token placeholder source :: after)
    (isMarkup : IsMarkup source) :
    IsLeftAlone text before source after ↔ IsPlainTag source := by
  have member : .token placeholder source ∈ Piece.cutAfter recognise none 0 text := by
    change _ ∈ Placeholder.pieces text
    rw [isCut]
    exact List.mem_append_right _ List.mem_cons_self
  obtain ⟨place, rest, length, recognised, rfl⟩ := Piece.exists_recognised_of_mem _ _ _ member
  obtain ⟨isSlot, free⟩ := eq_slot_of_recognise recognised (opens_of_isMarkup recognised isMarkup)
  rw [isLeftAlone_iff isCut]
  rw [isSlot] at isMarkup ⊢
  exact ⟨isPlainTag_of_isStructural free isMarkup, isStructural_of_isPlainTag⟩

/-- An opening tag with white space around its word and argument. -/
def wideTag : Text := "[[ If:Kids ]]"

theorem Placeholder.isLeftAlone_wideTag :
    Placeholder.pieces ('a' :: wideTag) = [.plain 'a'] ++ .token ⟨.double, " If:Kids "⟩ wideTag :: [] ∧
      IsMarkup wideTag ∧ IsLeftAlone ('a' :: wideTag) [.plain 'a'] wideTag [] := by
  have isCut : Placeholder.pieces ('a' :: wideTag) =
      [.plain 'a'] ++ .token ⟨.double, " If:Kids "⟩ wideTag :: [] := by
    rfl
  have isMarkup : IsMarkup wideTag := .inl ⟨⟨true, "Kids "⟩, by rfl⟩
  have plain : IsPlainTag wideTag :=
    .conditional true [' '] "If".toList "Kids ".toList
      (fun c member => by rw [List.mem_singleton.mp member]; rfl) (by decide)
  exact ⟨isCut, isMarkup, (isLeftAlone_iff_isPlainTag isCut isMarkup).mpr plain⟩

/-- An opening tag with white space in front of the colon. -/
def spacedTag : Text := "[[IF :Kids]]"

/-- The pass for conditional blocks takes the tag, and yet placeholders fill it in, report it and
list it. -/
theorem Placeholder.not_isLeftAlone_spacedTag :
    Placeholder.pieces spacedTag = [.token ⟨.double, "IF :Kids"⟩ spacedTag] ∧ IsMarkup spacedTag ∧
      resolve (ContextMap.insert {} "IF :Kids" "yes") spacedTag = "yes".toList ∧
      unresolved {} spacedTag = ["IF :Kids".toList] ∧
      (PlaceholderUse.ofText spacedTag).map (·.name) = ["IF :Kids".toList] ∧
      ¬ IsLeftAlone spacedTag [] spacedTag [] := by
  have reported : unresolved {} spacedTag = ["IF :Kids".toList] := by decide +kernel
  refine ⟨by rfl, .inl ⟨⟨true, "Kids"⟩, by rfl⟩, by decide +kernel, reported, by decide +kernel, ?_⟩
  intro leftAlone
  have unreported := leftAlone.unresolved_eq {}
  rw [reported] at unreported
  cases unreported

end Covenant
