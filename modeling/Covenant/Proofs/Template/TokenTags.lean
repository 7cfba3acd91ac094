import Covenant.Proofs.Template.ConditionalTrace
import Covenant.Proofs.Template.LoopForest
import Covenant.Proofs.Template.TokenBlocks

/-!
# Loops and conditional blocks between tokens

The tags of loops and conditional blocks and the variables of items are tokens, and whether a token
is one of them can be seen from its content.  So expanding loops and stripping conditional blocks
keep a text tokenised, and without a problem to report they leave none of their tags.
-/

namespace Covenant

open Loop (Symbol)

/-- What a recogniser finds in a token of its own. -/
def slotToken? {α : Type} (recognise : Recogniser α) (content : Text) : Option α :=
  (recognise none (Symbol.slot content).source).map (·.1)

/-- A recogniser of bracketed texts reads slots. -/
theorem ReadsSlots.of_bracketed {α : Type} {recognise : Recogniser α} {IsSource : α → Text → Prop}
    (ignores : IgnoresBefore recognise)
    (bracketed : ∀ found source, IsSource found source → IsBracketed source)
    (recognises : ∀ text found length, recognise none text = some (found, length) ↔
      ∃ source rest, IsSource found source ∧ text = source ++ rest ∧ length = source.length) :
    ReadsSlots recognise isBracket (slotToken? recognise) := by
  have opens {c d : Char} {rest : Text} (noPair : ¬ (c = '[' ∧ d = '[')) :
      recognise none (c :: d :: rest) = none := by
    by_contra isToken
    obtain ⟨⟨found, length⟩, isToken⟩ := Option.ne_none_iff_exists'.mp isToken
    obtain ⟨source, after, isSource, whole, -⟩ := (recognises _ _ _).mp isToken
    obtain ⟨body, -, rfl⟩ := bracketed found source isSource
    simp only [List.cons_append, List.cons.injEq] at whole
    exact noPair ⟨whole.1, whole.2.1⟩
  have opensPair {c : Char} (notOpening : c ≠ '[') (rest : Text) : recognise none (c :: rest) = none := by
    cases rest with
    | cons d rest => exact opens fun pair => notOpening pair.1
    | nil =>
        by_contra isToken
        obtain ⟨⟨found, length⟩, isToken⟩ := Option.ne_none_iff_exists'.mp isToken
        obtain ⟨source, after, isSource, whole, -⟩ := (recognises _ _ _).mp isToken
        obtain ⟨body, -, rfl⟩ := bracketed found source isSource
        simp at whole
  refine ⟨ignores, fun _ => isBracket_of_not_isDelimiter, ?_, opensPair (by decide), ?_, ?_⟩
  · intro c rest noBracket
    refine opensPair ?_ rest
    rintro rfl
    exact absurd noBracket (by decide)
  · intro content rest clean
    have slotIsBracketed : IsBracketed (Symbol.slot content).source :=
      ⟨content, clean.bracketFree, rfl⟩
    have same (rest : Text) (found : α) (length : Nat) :
        recognise none ((Symbol.slot content).source ++ rest) = some (found, length) ↔
          IsSource found (Symbol.slot content).source ∧
            length = (Symbol.slot content).source.length := by
      rw [recognises]
      constructor
      · rintro ⟨source, after, isSource, whole, isLength⟩
        obtain ⟨rfl, -⟩ := slotIsBracketed.append_inj (bracketed found source isSource) whole
        exact ⟨isSource, isLength⟩
      · rintro ⟨isSource, isLength⟩
        exact ⟨_, rest, isSource, rfl, isLength⟩
    have alone := same []
    rw [List.append_nil] at alone
    refine Option.ext fun ⟨found, length⟩ => ?_
    simp only [slotToken?, Option.map_map, Option.map_eq_some_iff, Function.comp_apply, same rest,
      Prod.exists, Prod.mk.injEq, alone]
    constructor
    · rintro ⟨isSource, isLength⟩
      exact ⟨found, _, ⟨isSource, isLength⟩, rfl, isLength.symm⟩
    · rintro ⟨other, otherLength, ⟨isSource, -⟩, rfl, rfl⟩
      exact ⟨isSource, rfl⟩
  · intro content rest clean _
    cases content with
    | nil => exact opens (by simp)
    | cons d content =>
        refine opens fun pair => ?_
        have noMark := clean d List.mem_cons_self
        rw [pair.2] at noMark
        exact absurd noMark (by decide)

/-- What is enclosed is a run of allowed characters, at least one, between an opening and a closing. -/
theorem enclosed?_eq_some {opening closing : Text} {allowed : Char → Bool} {text content : Text}
    {length : Nat} (enclosed : enclosed? opening closing allowed text = some (content, length)) :
    ∃ after, text = opening ++ (content ++ (closing ++ after)) ∧ content ≠ [] ∧
      (∀ c ∈ content, allowed c = true) ∧
      length = opening.length + content.length + closing.length := by
  rw [enclosed?] at enclosed
  split at enclosed
  · rename_i opens
    obtain ⟨rest, rfl⟩ := List.isPrefixOf_iff_prefix.mp opens
    simp only [List.drop_left] at enclosed
    split at enclosed
    · rename_i closes
      rw [Bool.and_eq_true, Bool.not_eq_true', List.isPrefixOf_iff_prefix] at closes
      obtain ⟨filled, after, isAfter⟩ := closes
      obtain ⟨rfl, rfl⟩ := Prod.mk.inj (Option.some.inj enclosed)
      refine ⟨after, ?_, by simpa using filled, fun c member => List.mem_takeWhile_imp member, rfl⟩
      have whole := List.prefix_iff_eq_append.mp (List.takeWhile_prefix allowed (l := rest))
      rw [isAfter, whole]
    · cases enclosed
  · cases enclosed

/-- A run of allowed characters in double brackets, with at least one character. -/
theorem enclosed?_double_eq_some_iff {allowed : Char → Bool}
    (noBracket : ∀ c, allowed c = true → isBracket c = false) {text content : Text} {length : Nat} :
    enclosed? "[[" "]]" allowed text = some (content, length) ↔
      ∃ source rest, (content ≠ [] ∧ (∀ c ∈ content, allowed c = true) ∧
        source = (Symbol.slot content).source) ∧ text = source ++ rest ∧ length = source.length := by
  have stops : allowed ']' = false := by
    by_contra isAllowed
    exact absurd (noBracket ']' (Bool.not_eq_false _ ▸ isAllowed)) (by decide)
  constructor
  · intro enclosed
    obtain ⟨after, rfl, filled, isAllowed, rfl⟩ := enclosed?_eq_some enclosed
    refine ⟨_, after, ⟨filled, isAllowed, rfl⟩, by simp [Symbol.source], ?_⟩
    simp [Symbol.source]
    omega
  · rintro ⟨_, rest, ⟨filled, isAllowed, rfl⟩, rfl, rfl⟩
    have taken : (content ++ ']' :: ']' :: rest).takeWhile allowed = content := by
      rw [List.takeWhile_append_of_pos isAllowed, List.takeWhile_cons_of_neg (by simp [stops]),
        List.append_nil]
    simp [enclosed?, Symbol.source, taken, filled, List.isPrefixOf]
    omega

namespace Loop

/-! ### Loops -/

def markOf (isOpen : Bool) : Char := if isOpen then '#' else '/'

theorem not_isBlank_markOf (isOpen : Bool) : isBlank (markOf isOpen) = false := by
  cases isOpen <;> rfl

/-- What is written for a tag with a mark and a name. -/
inductive TagText (mark : Char) (name : Text) : Text → Prop where
  | intro (blanks blanksAfter last : Text) (allBlank : ∀ c ∈ blanks, isBlank c = true)
      (allBlankAfter : ∀ c ∈ blanksAfter, isBlank c = true) (lastBlank : ∀ c ∈ last, isBlank c = true)
      (isName : IsName name) :
      TagText mark name
        ('[' :: '[' :: (blanks ++ mark :: (blanksAfter ++ (name ++ (last ++ [']', ']'])))))

theorem tagWith?_eq_some_iff {mark : Char} (notBlank : isBlank mark = false) {name text rest : Text} :
    tagWith? mark text = some (name, rest) ↔
      ∃ source, TagText mark name source ∧ text = source ++ rest := by
  constructor
  · intro read
    simp only [tagWith?, Option.bind_eq_bind, Option.bind_eq_some_iff] at read
    obtain ⟨afterOpening, opened, afterMark, marked, read⟩ := read
    split at read
    · cases read
    · rename_i filled
      obtain ⟨rest, closed, isName⟩ := Option.bind_eq_some_iff.mp read
      obtain ⟨rfl, rfl⟩ := Prod.mk.inj (Option.some.inj isName)
      obtain ⟨blanks, allBlank, rfl⟩ := (Text.afterBlanksAnd?_eq_some_iff notBlank).mp marked
      obtain ⟨blanksAfter, allBlankAfter, inFront⟩ := Text.exists_blanks_append_trimStart afterMark
      have behindName := List.prefix_iff_eq_append.mp
        (List.takeWhile_prefix Naming.isNameChar (l := Text.trimStart afterMark))
      obtain ⟨last, lastBlank, behind⟩ := Text.exists_blanks_append_trimStart
        ((Text.trimStart afterMark).drop
          ((Text.trimStart afterMark).takeWhile Naming.isNameChar).length)
      rw [Text.afterClosing?_eq_some_iff.mp closed] at behind
      rw [behind] at behindName
      refine ⟨_, .intro blanks blanksAfter last allBlank allBlankAfter lastBlank
        ⟨by simpa using filled, fun c member => List.mem_takeWhile_imp member⟩, ?_⟩
      rw [Text.afterOpening?_eq_some_iff.mp opened]
      conv_lhs => rw [inFront, ← behindName]
      simp
  · rintro ⟨_, ⟨blanks, blanksAfter, last, allBlank, allBlankAfter, lastBlank, isName⟩, rfl⟩
    have marked (rest : Text) : Text.afterBlanksAnd? mark (blanks ++ mark :: rest) = some rest :=
      (Text.afterBlanksAnd?_eq_some_iff notBlank).mpr ⟨blanks, allBlank, rfl⟩
    have atName : Text.trimStart (blanksAfter ++ (name ++ (last ++ ']' :: ']' :: rest))) =
        name ++ (last ++ ']' :: ']' :: rest) := by
      rw [Text.trimStart_blanks_append allBlankAfter, isName.trimStart_append]
    have afterName : (name ++ (last ++ ']' :: ']' :: rest)).takeWhile Naming.isNameChar = name := by
      cases last with
      | nil => exact isName.takeWhile_closing _
      | cons c last =>
          have notName : ¬ Naming.isNameChar c = true := fun isNameChar => by
            have blank := lastBlank c List.mem_cons_self
            rw [isBlank_of_isNameChar isNameChar] at blank
            cases blank
          rw [List.takeWhile_append_of_pos isName.2, List.cons_append,
            List.takeWhile_cons_of_neg notName, List.append_nil]
    have atClosing : Text.trimStart (last ++ ']' :: ']' :: rest) = ']' :: ']' :: rest := by
      rw [Text.trimStart_blanks_append lastBlank]
      exact Text.trimStart_of_not_blank (by decide) _
    have filled : name.isEmpty = false := by simpa using isName.1
    simp only [tagWith?, List.cons_append, List.append_assoc, List.nil_append, Text.afterOpening?,
      Option.bind_eq_bind, Option.bind_some, marked, atName, afterName, filled, Bool.false_eq_true,
      if_false, List.drop_left, atClosing, Text.afterClosing?]

theorem tagWith?_hash_of_slash {text : Text} {read : Text × Text}
    (closes : tagWith? '/' text = some read) : tagWith? '#' text = none := by
  obtain ⟨_, ⟨blanks, blanksAfter, last, allBlank, -, -, -⟩, rfl⟩ :=
    (tagWith?_eq_some_iff (by decide)).mp (show _ = some (read.1, read.2) from closes)
  simp only [List.cons_append, List.append_assoc]
  refine tagWith?_of_other_start ?_
  rw [Text.trimStart_blanks_append allBlank, Text.trimStart_of_not_blank (by decide)]
  simp

theorem recognise_eq_some_iff {text : Text} {form : TagForm} {length : Nat} :
    recognise none text = some (form, length) ↔
      ∃ source rest, TagText (markOf form.isOpen) form.argument source ∧ text = source ++ rest ∧
        length = source.length := by
  have sized (source rest : Text) : (source ++ rest).length - rest.length = source.length := by
    simp
  constructor
  · intro recognised
    simp only [recognise, Option.or_eq_some_iff, Option.map_eq_some_iff, Prod.mk.injEq] at recognised
    rcases recognised with ⟨⟨name, rest⟩, read, rfl, rfl⟩ | ⟨-, ⟨name, rest⟩, read, rfl, rfl⟩
    · obtain ⟨source, tag, rfl⟩ := (tagWith?_eq_some_iff (by decide)).mp read
      exact ⟨source, rest, tag, rfl, sized source rest⟩
    · obtain ⟨source, tag, rfl⟩ := (tagWith?_eq_some_iff (by decide)).mp read
      exact ⟨source, rest, tag, rfl, sized source rest⟩
  · rintro ⟨source, rest, tag, rfl, rfl⟩
    obtain ⟨isOpen, name⟩ := form
    have read : tagWith? (markOf isOpen) (source ++ rest) = some (name, rest) :=
      (tagWith?_eq_some_iff (not_isBlank_markOf isOpen)).mpr ⟨source, tag, rfl⟩
    cases isOpen with
    | true =>
        have opens : tagWith? '#' (source ++ rest) = some (name, rest) := read
        simp only [recognise, opens, Option.map_some, Option.some_or, sized]
    | false =>
        have closes : tagWith? '/' (source ++ rest) = some (name, rest) := read
        simp only [recognise, tagWith?_hash_of_slash closes, closes, Option.map_some,
          Option.map_none, Option.none_or, sized]

theorem bracketFree_of_isName {name : Text} (isName : IsName name) : BracketFree name := by
  intro c member
  have isNameChar := isName.2 c member
  by_contra notFree
  rcases isBracket_iff.mp (by simpa using notFree) with rfl | rfl
  · exact absurd isNameChar (by decide)
  · exact absurd isNameChar (by decide)

theorem isBracketed_of_tagText {isOpen : Bool} {name source : Text}
    (tag : TagText (markOf isOpen) name source) : IsBracketed source := by
  obtain ⟨blanks, blanksAfter, last, allBlank, allBlankAfter, lastBlank, isName⟩ := tag
  have mark : BracketFree [markOf isOpen] := by cases isOpen <;> decide
  have body := (Conditional.bracketFree_of_blank allBlank).append (mark.append
    ((Conditional.bracketFree_of_blank allBlankAfter).append
      ((bracketFree_of_isName isName).append (Conditional.bracketFree_of_blank lastBlank))))
  exact ⟨_, body, by simp⟩

end Loop

end Covenant
