import Covenant.Proofs.Template.Bracket
import Covenant.Proofs.Template.Forest
import Covenant.Proofs.Template.Part
import Covenant.Template.Conditional

/-!
# Conditional forests

A tag is two opening brackets, a word in any letter case, a colon, an argument without brackets
and two closing brackets, with white space allowed before and after the word.  So whether a tag
stands at the start of a text can be seen from the tag alone, whatever follows it.

Resolving the conditional blocks of a text that was written for a forest gives the forest with
its nodes resolved from the inside out: a node whose test holds becomes its trimmed content, any
other one nothing.  With too few passes the highest nodes stay, tags and all, and the limit is
the one problem.
-/

namespace Covenant.Conditional

/-- The word of an opening or a closing tag. -/
def wordOf (isOpen : Bool) : Text := if isOpen then "if" else "endif"

/-- What is written for a tag with a word and an argument. -/
inductive TagText (word argument : Text) : Text → Prop where
  | intro (blanks letters blanksAfter : Text) (allBlank : ∀ c ∈ blanks, isBlank c = true)
      (spells : Text.Spells word letters) (allBlankAfter : ∀ c ∈ blanksAfter, isBlank c = true)
      (free : BracketFree argument) :
      TagText word argument
        ('[' :: '[' :: (blanks ++ (letters ++ (blanksAfter ++ ':' :: (argument ++ [']', ']'])))))

theorem TagText.ne_nil {word argument source : Text} (tag : TagText word argument source) :
    source ≠ [] := by
  cases tag
  simp

theorem not_isBlank_of_isFormOf_i {c : Char} (isForm : Text.isFormOf 'i' c = true) :
    isBlank c = false := by
  simp only [Text.isFormOf, Bool.or_eq_true, Bool.and_eq_true, decide_eq_true_eq] at isForm
  rcases isForm with (((rfl | rfl) | ⟨-, rfl | rfl⟩) | ⟨isS, -⟩) | ⟨isK, -⟩
  · rfl
  · rfl
  · rfl
  · rfl
  · exact absurd isS (by decide)
  · exact absurd isK (by decide)

theorem eq_of_isFormOf_e {c : Char} (isForm : Text.isFormOf 'e' c = true) : c = 'e' ∨ c = 'E' := by
  simp only [Text.isFormOf, Bool.or_eq_true, Bool.and_eq_true, decide_eq_true_eq] at isForm
  rcases isForm with (((isSmall | isCapital) | ⟨isI, -⟩) | ⟨isS, -⟩) | ⟨isK, -⟩
  · exact .inl isSmall
  · exact .inr isCapital
  · exact absurd isI (by decide)
  · exact absurd isS (by decide)
  · exact absurd isK (by decide)

/-- White space in front of the word of a tag is skipped, and nothing else. -/
theorem trimStart_word {isOpen : Bool} {blanks letters : Text}
    (allBlank : ∀ c ∈ blanks, isBlank c = true) (spells : Text.Spells (wordOf isOpen) letters)
    (rest : Text) : Text.trimStart (blanks ++ (letters ++ rest)) = letters ++ rest := by
  rw [Text.trimStart_blanks_append allBlank]
  cases isOpen with
  | true =>
      cases spells with
      | cons isForm spells => exact Text.trimStart_of_not_blank (not_isBlank_of_isFormOf_i isForm) _
  | false =>
      cases spells with
      | cons isForm spells =>
          rcases eq_of_isFormOf_e isForm with rfl | rfl
          · exact Text.trimStart_of_not_blank rfl _
          · exact Text.trimStart_of_not_blank rfl _

theorem tagWith?_eq_some_iff {isOpen : Bool} {argument text rest : Text} :
    tagWith? (wordOf isOpen) text = some (argument, rest) ↔
      ∃ source, TagText (wordOf isOpen) argument source ∧ text = source ++ rest := by
  constructor
  · intro read
    simp only [tagWith?, Option.bind_eq_bind, Option.bind_eq_some_iff, Option.some.injEq,
      Prod.mk.injEq] at read
    obtain ⟨afterOpening, opened, afterWord, word, afterColon, colon, _, closed, rfl, rfl⟩ := read
    obtain ⟨blanks, allBlank, inFront⟩ := Text.exists_blanks_append_trimStart afterOpening
    obtain ⟨letters, spells, lettersAre⟩ := Text.afterWord?_eq_some_iff.mp word
    obtain ⟨blanksAfter, allBlankAfter, rfl⟩ :=
      (Text.afterBlanksAnd?_eq_some_iff (by decide)).mp colon
    have upToBrackets := List.prefix_iff_eq_append.mp
      (List.takeWhile_prefix (fun c => !isBracket c) (l := afterColon))
    rw [Text.afterClosing?_eq_some_iff.mp closed] at upToBrackets
    refine ⟨_, .intro blanks letters blanksAfter allBlank spells allBlankAfter
      (bracketFree_takeWhile afterColon), ?_⟩
    rw [Text.afterOpening?_eq_some_iff.mp opened, inFront, lettersAre]
    simpa using upToBrackets.symm
  · rintro ⟨_, ⟨blanks, letters, blanksAfter, allBlank, spells, allBlankAfter, free⟩, rfl⟩
    have word : Text.afterWord? (wordOf isOpen)
        (letters ++ (blanksAfter ++ ':' :: (argument ++ ']' :: ']' :: rest))) =
          some (blanksAfter ++ ':' :: (argument ++ ']' :: ']' :: rest)) :=
      Text.afterWord?_eq_some_iff.mpr ⟨letters, spells, rfl⟩
    have colon : Text.afterBlanksAnd? ':'
        (blanksAfter ++ ':' :: (argument ++ ']' :: ']' :: rest)) =
          some (argument ++ ']' :: ']' :: rest) :=
      (Text.afterBlanksAnd?_eq_some_iff (by decide)).mpr ⟨blanksAfter, allBlankAfter, rfl⟩
    simp [tagWith?, Text.afterOpening?, trimStart_word allBlank spells, word, colon,
      free.takeWhile_closing, Text.afterClosing?]

theorem tagWith?_if_of_endif {text : Text} {read : Text × Text}
    (closes : tagWith? "endif" text = some read) : tagWith? "if" text = none := by
  obtain ⟨_, ⟨blanks, letters, blanksAfter, allBlank, spells, -, -⟩, rfl⟩ :=
    (@tagWith?_eq_some_iff false read.1 text read.2).mp closes
  have trimmed (rest : Text) := @trimStart_word false blanks letters allBlank spells rest
  have notIf (rest : Text) : Text.afterWord? ['i', 'f'] (letters ++ rest) = none := by
    cases spells with
    | cons isForm spells =>
        rcases eq_of_isFormOf_e isForm with rfl | rfl
        · rfl
        · rfl
  simp [tagWith?, Text.afterOpening?, trimmed, notIf]

/-- A tag is recognised exactly when its text is at the start. -/
theorem recognise_eq_some_iff {before : Option Char} {text : Text} {form : TagForm}
    {length : Nat} :
    recognise before text = some (form, length) ↔
      ∃ source rest, TagText (wordOf form.isOpen) form.argument source ∧
        text = source ++ rest ∧ length = source.length := by
  have sized (source rest : Text) : (source ++ rest).length - rest.length = source.length := by
    simp
  constructor
  · intro recognised
    simp only [recognise, Option.or_eq_some_iff, Option.map_eq_some_iff, Prod.mk.injEq] at recognised
    rcases recognised with ⟨⟨argument, rest⟩, read, rfl, rfl⟩ |
      ⟨-, ⟨argument, rest⟩, read, rfl, rfl⟩
    · obtain ⟨source, tag, rfl⟩ := (@tagWith?_eq_some_iff true _ _ _).mp read
      exact ⟨source, rest, tag, rfl, sized source rest⟩
    · obtain ⟨source, tag, rfl⟩ := (@tagWith?_eq_some_iff false _ _ _).mp read
      exact ⟨source, rest, tag, rfl, sized source rest⟩
  · rintro ⟨source, rest, tag, rfl, rfl⟩
    obtain ⟨isOpen, argument⟩ := form
    have read := (@tagWith?_eq_some_iff isOpen argument _ rest).mpr ⟨source, tag, rfl⟩
    cases isOpen with
    | true =>
        have opens : tagWith? "if" (source ++ rest) = some (argument, rest) := read
        simp only [recognise, opens, Option.map_some, Option.some_or, sized]
    | false =>
        have closes : tagWith? "endif" (source ++ rest) = some (argument, rest) := read
        simp only [recognise, tagWith?_if_of_endif closes, closes, Option.map_some,
          Option.map_none, Option.none_or, sized]

theorem recognise_ignoresBefore : IgnoresBefore recognise := fun _ _ _ => rfl

theorem reads_plain {c : Char} (free : isBracket c = false) : markup.Reads [.plain c] := by
  apply BlockMarkup.Reads.plain recognise_ignoresBefore
  intro rest
  by_contra recognised
  obtain ⟨⟨form, length⟩, found⟩ := Option.ne_none_iff_exists'.mp recognised
  obtain ⟨_, _, tag, starts, -⟩ := (@recognise_eq_some_iff none _ _ _).mp found
  cases tag
  simp only [List.cons_append, List.cons.injEq] at starts
  rw [starts.1] at free
  exact absurd free (by decide)

theorem reads_plains {text : Text} (free : BracketFree text) : markup.Reads (Part.plains text) := by
  apply BlockMarkup.Reads.of_forall
  intro part member
  obtain ⟨c, inText, rfl⟩ := List.mem_map.mp member
  exact reads_plain (free c inText)

theorem reads_tagOf {isOpen : Bool} {argument source : Text}
    (tag : TagText (wordOf isOpen) argument source) :
    markup.Reads [.tagged (markup.tagOf ⟨⟨isOpen, argument⟩, 0, source⟩)] :=
  @BlockMarkup.Reads.tagged markup recognise_ignoresBefore ⟨isOpen, argument⟩ _ tag.ne_nil
    (fun rest => (@recognise_eq_some_iff none _ _ _).mpr ⟨source, rest, tag, rfl, rfl⟩) rfl

end Covenant.Conditional

namespace Covenant.Conditional

/-- Leaves as they are, and tags in capitals. -/
def writing : Writing Text where
  leaf := id
  opening argument := "[[IF:" ++ argument ++ "]]"
  closing name := "[[ENDIF:" ++ name ++ "]]"

/-- An argument and a name without brackets that name the same field. -/
def SameField (argument name : Text) : Prop :=
  BracketFree argument ∧ BracketFree name ∧
    Text.lower (Text.trim (fieldName argument)) = Text.lower (Text.trim (fieldName name))

instance (argument name : Text) : Decidable (SameField argument name) :=
  inferInstanceAs (Decidable (BracketFree argument ∧ BracketFree name ∧ _ = _))

@[simp]
theorem fieldName_trim (argument : Text) : fieldName (Text.trim argument) = fieldName argument := by
  simp [fieldName]

@[simp]
theorem test_trim (context : ContextMap) (argument : Text) :
    test context (Text.trim argument) = test context argument := by
  simp [test]

theorem tagText_opening {argument : Text} (free : BracketFree argument) :
    TagText (wordOf true) argument (writing.opening argument) :=
  .intro [] "IF" [] (by simp) (by simp [wordOf, Text.Spells]; decide) (by simp) free

theorem tagText_closing {name : Text} (free : BracketFree name) :
    TagText (wordOf false) name (writing.closing name) :=
  .intro [] "ENDIF" [] (by simp) (by simp [wordOf, Text.Spells]; decide) (by simp) free

/-- What becomes of a node that is resolved. -/
def resolved (context : ContextMap) (argument content : Text) : Text :=
  if test context argument then Text.trim content else []

theorem leafLanguage (context : ContextMap) :
    LeafLanguage markup
      (fun argument inner => (pure (render context argument inner) : Id Text)) (resolved context)
      BracketFree (fun tag => markup.Reads [.tagged tag]) where
  nil := BracketFree.nil
  append := BracketFree.append
  reads := reads_plains
  readsTag := id
  renders _ _ _ := rfl
  closed := by
    intro opening text _ _ free
    rw [resolved]
    split
    · exact free.trim
    · exact BracketFree.nil

theorem speaks_nest_of_wellFormed {forest : Forest Text}
    (wellFormed : forest.WellFormed BracketFree SameField) :
    (forest.nest markup writing).Speaks BracketFree (fun tag => markup.Reads [.tagged tag]) := by
  apply Forest.speaks_nest markup writing (fun content free => free) _ wellFormed
  rintro argument name ⟨freeArgument, freeName, sameField⟩
  refine ⟨reads_tagOf (tagText_opening freeArgument), reads_tagOf (tagText_closing freeName), ?_⟩
  simpa [BlockMarkup.tagOf, markup] using sameField

theorem reduce_text_of_wellFormed (context : ContextMap) (passes : Nat) {forest : Forest Text}
    (wellFormed : forest.WellFormed BracketFree SameField) :
    markup.reduce (fun argument inner => (pure (render context argument inner) : Id Text)) passes
        [] (forest.text writing) =
      pure ⟨forest.settled writing (resolved context) passes, [],
        decide (forest.height ≤ passes)⟩ := by
  have reduced := (leafLanguage context).reduce_nest passes []
    (speaks_nest_of_wellFormed wellFormed)
  have settled : Part.written
      ((forest.nest markup writing).settled (textExchange (resolved context)) passes) =
        forest.settled writing (resolved context) passes :=
    Forest.written_settled_nest markup writing passes
      (fun argument name _ content => by simp [resolved]) wellFormed
  rwa [Forest.written_parts_nest, Forest.height_nest, settled] at reduced

theorem mayHoldTags_text {forest : Forest Text} (hasNode : forest.height ≠ 0) :
    mayHoldTags (forest.text writing) = true := by
  obtain ⟨before, argument, after, written⟩ := forest.exists_opening_in_text writing hasNode
  rw [written]
  exact mayHoldTags_append before _

/-- Stripping a text that was written for a forest resolves its nodes from the inside out, up to
the height that is the number of passes. -/
theorem strip_text_of_forest (context : ContextMap) (passes : Nat) (forest : Forest Text)
    (wellFormed : forest.WellFormed BracketFree SameField) (hasNode : forest.height ≠ 0) :
    strip context passes (forest.text writing) =
      { text := BlankLines.collapse (forest.settled writing (resolved context) passes)
        problems := if forest.height ≤ passes then [] else [limitMessage passes] } := by
  have reduced := reduce_text_of_wellFormed context passes wellFormed
  rw [strip, if_pos (mayHoldTags_text hasNode), Int.toNat_natCast, reduced]
  by_cases enough : forest.height ≤ passes
  · simp [enough]
  · simp [enough]

/-- Three blocks of one name inside each other, the innermost for a field that is not set, and a
block of the same name after them. -/
def nestedForest : Forest Text :=
  .leaf "Buyer" <|
  .node "Kids"
    (.leaf " has " <|
      .node " KIDS "
        (.leaf "\n two " <|
          .node "!Kids=2" (.leaf "not" .nil) "kids" <|
          .leaf "children " .nil)
        "kids" <|
      .leaf "." .nil)
    "Kids" <|
  .node "!Kids" (.leaf "none" .nil) "kids" .nil

theorem strip_text_of_nestedForest :
    nestedForest.WellFormed BracketFree SameField ∧ nestedForest.height ≠ 0 ∧
      strip (ContextMap.insert {} "Kids" "2") (2 : Nat) (nestedForest.text writing) =
        { text := "Buyer[[IF:Kids]] has two children.[[ENDIF:Kids]]"
          problems := ["Conditional blocks still present after 2 passes; stopped"] } := by
  have wellFormed : nestedForest.WellFormed BracketFree SameField := by
    simp only [nestedForest, Forest.WellFormed]
    decide
  have hasNode : nestedForest.height ≠ 0 := by decide
  refine ⟨wellFormed, hasNode, ?_⟩
  rw [strip_text_of_forest _ 2 nestedForest wellFormed hasNode]
  rfl

end Covenant.Conditional
