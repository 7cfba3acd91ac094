import Covenant.Proofs.Numbering.Division
import Covenant.Proofs.Template.TokenPasses

/-!
# Numbering between tokens

Markers are tokens, and a reset marker that is alone on its line is taken with characters outside
of tokens.  So numbering keeps a text tokenised, and the tokens that stay are no markers, whatever
forms of letters their words have.
-/

namespace Covenant

open Loop (Symbol)

variable {kept : Text → Prop} {text : Text}

namespace NumberingMarker

theorem Accepted.isBracketed {source : Text} (accepted : Accepted source) : IsBracketed source := by
  obtain ⟨spelling, member, word, spells, encloses⟩ := accepted
  obtain ⟨first, last, firstBlank, lastBlank⟩ := encloses
  have wordFree : BracketFree word := fun c inWord => (isWordChar_of_spells member spells c inWord).2
  have body := (Conditional.bracketFree_of_blank firstBlank).append
    (wordFree.append (Conditional.bracketFree_of_blank lastBlank))
  exact ⟨_, body, by simp⟩

theorem exists_accepted_of_spelled? {tried : List Text}
    (known : ∀ spelling ∈ tried, spelling ∈ spellings.map (·.1)) {rest : Text}
    {marker : NumberingMarker} (found : tried.findSome? (spelled? text) = some (marker, rest)) :
    ∃ source, Accepted source ∧ text = source ++ rest := by
  obtain ⟨spelling, inTried, found⟩ := (findSome?_spelled?_eq_some_iff known).mp found
  obtain ⟨word, source, spells, encloses, rfl, -⟩ :=
    (spelled?_eq_some_iff (known spelling inTried)).mp found
  exact ⟨source, ⟨spelling, known spelling inTried, word, spells, encloses⟩, rfl⟩

theorem bracketed?_eq_findSome? (text : Text) :
    bracketed? text = (spellings.map (·.1)).findSome? (spelled? text) := by
  rw [List.findSome?_map]
  rfl

theorem bracketed?_of_accepted {source : Text} (accepted : Accepted source) (rest : Text) :
    bracketed? (source ++ rest) ≠ none := by
  obtain ⟨spelling, member, word, spells, encloses⟩ := accepted
  have found : spelled? (source ++ rest) spelling = some (ofWord word, rest) :=
    (spelled?_eq_some_iff member).mpr ⟨word, source, spells, encloses, rfl, rfl⟩
  rw [bracketed?_eq_findSome?, (findSome?_spelled?_eq_some_iff fun _ member => member).mpr
    ⟨spelling, member, found⟩]
  simp

/-- What the recogniser takes off: a marker, with the rest of its line if it is a reset marker that
is alone there. -/
inductive Taken (rest : Text) : Text → Prop where
  | marker {source : Text} (accepted : Accepted source) : Taken rest source
  | line {first source last lineEnd : Text} (firstSpace : ∀ c ∈ first, isSpaceOrTab c = true)
      (accepted : Accepted source) (lastSpace : ∀ c ∈ last, isSpaceOrTab c = true)
      (ends : lineEnd = ['\n'] ∨ lineEnd = ['\r', '\n'] ∨ lineEnd = [] ∧ rest = []) :
      Taken rest (first ++ (source ++ (last ++ lineEnd)))

theorem taken_of_recognise {before : Option Char} {marker : NumberingMarker} {length : Nat}
    (recognised : recognise before text = some (marker, length)) :
    ∃ source rest, Taken rest source ∧ text = source ++ rest ∧ length = source.length := by
  have sized (source rest : Text) : (source ++ rest).length - rest.length = source.length := by
    simp
  rw [recognise] at recognised
  split at recognised
  · rename_i rest isLine
    obtain ⟨-, rfl⟩ := Prod.mk.inj (Option.some.inj recognised)
    split at isLine
    · simp only [resetLine?, Option.bind_eq_bind, Option.bind_eq_some_iff] at isLine
      obtain ⟨⟨marker, behind⟩, found, ended⟩ := isLine
      obtain ⟨source, accepted, start⟩ :=
        exists_accepted_of_spelled? mem_spellings_of_mem_resetSpellings found
      obtain ⟨lineEnd, ends, isEnd⟩ := afterLineEnd?_eq_some_iff.mp ended
      have whole : text = (text.takeWhile isSpaceOrTab ++
          (source ++ (behind.takeWhile isSpaceOrTab ++ lineEnd))) ++ rest := by
        have isBehind : behind = behind.takeWhile isSpaceOrTab ++ (lineEnd ++ rest) := by
          rw [← isEnd, List.takeWhile_append_dropWhile]
        have isText : text = text.takeWhile isSpaceOrTab ++ (source ++ behind) := by
          rw [← start, List.takeWhile_append_dropWhile]
        conv_lhs => rw [isText, isBehind]
        simp
      refine ⟨_, rest, .line (fun c member => List.mem_takeWhile_imp member) accepted
        (fun c member => List.mem_takeWhile_imp member) ends, whole, ?_⟩
      conv_lhs => rw [whole]
      exact sized _ _
    · cases isLine
  · obtain ⟨⟨found, rest⟩, isMarker, same⟩ := Option.map_eq_some_iff.mp recognised
    obtain ⟨-, rfl⟩ := Prod.mk.inj same
    rw [bracketed?_eq_findSome?] at isMarker
    obtain ⟨source, accepted, rfl⟩ := exists_accepted_of_spelled? (fun _ member => member) isMarker
    exact ⟨source, rest, .marker accepted, rfl, sized source rest⟩

/-- More than a marker is taken off at the start of a line only, by a reset. -/
theorem accepted_or_reset {before : Option Char} {marker : NumberingMarker} {source rest : Text}
    (recognised : recognise before (source ++ rest) = some (marker, source.length)) :
    Accepted source ∨ (StartsLine before ∧ marker = .reset) := by
  rw [recognise] at recognised
  split at recognised
  · rename_i isLine
    obtain ⟨rfl, -⟩ := Prod.mk.inj (Option.some.inj recognised)
    split at isLine
    · rename_i starts
      exact .inr ⟨(all_isLineFeed_iff before).mp starts, rfl⟩
    · cases isLine
  · obtain ⟨⟨found, after⟩, isMarker, same⟩ := Option.map_eq_some_iff.mp recognised
    obtain ⟨-, sameLength⟩ := Prod.mk.inj same
    rw [bracketed?_eq_findSome?] at isMarker
    obtain ⟨word, accepted, whole⟩ := exists_accepted_of_spelled? (fun _ member => member) isMarker
    have size := congrArg List.length whole
    simp only [List.length_append] at size sameLength
    obtain ⟨rfl, -⟩ := List.append_inj whole (by omega)
    exact .inl accepted

/-- In front of what is taken off stand at most spaces and tabs. -/
theorem Taken.exists_opening {source rest : Text} (taken : Taken rest source) :
    ∃ first behind, (∀ c ∈ first, isSpaceOrTab c = true) ∧ source = first ++ '[' :: '[' :: behind := by
  cases taken with
  | marker accepted =>
      obtain ⟨body, -, rfl⟩ := accepted.isBracketed
      exact ⟨[], _, nofun, rfl⟩
  | @line first source last lineEnd firstSpace accepted lastSpace ends =>
      obtain ⟨body, -, rfl⟩ := accepted.isBracketed
      exact ⟨first, body ++ [']', ']'] ++ (last ++ lineEnd), firstSpace, by simp⟩

theorem Taken.ne_nil {source rest : Text} (taken : Taken rest source) : source ≠ [] := by
  obtain ⟨first, behind, -, rfl⟩ := taken.exists_opening
  simp

/-! ### Symbols -/

theorem ne_opening_of_isSpaceOrTab {c : Char} (space : isSpaceOrTab c = true) : c ≠ '[' := by
  rintro rfl
  exact absurd space (by decide)

/-- Nothing begins inside a token. -/
theorem recognise_inside {before : Option Char} {content : Text} (free : BracketFree content)
    (rest : Text) : recognise before (content ++ ']' :: rest) = none := by
  by_contra recognised
  obtain ⟨⟨marker, length⟩, recognised⟩ := Option.ne_none_iff_exists'.mp recognised
  obtain ⟨source, after, taken, whole, -⟩ := taken_of_recognise recognised
  obtain ⟨first, behind, firstSpace, rfl⟩ := taken.exists_opening
  have noOpening : ∀ c ∈ content ++ [']'], c ≠ '[' := by
    intro c member
    rintro rfl
    rcases List.mem_append.mp member with inContent | isClosing
    · exact absurd (free '[' inContent) (by decide)
    · simp at isClosing
  have split : (content ++ [']']) ++ rest = first ++ '[' :: ('[' :: (behind ++ after)) := by
    simpa using whole
  obtain ⟨between, rfl, -⟩ := Tokenised.exists_of_append_eq noOpening split
  exact absurd (firstSpace ']' (by simp)) (by decide)

theorem recognise_second {before : Option Char} {content : Text} (free : BracketFree content)
    (rest : Text) : recognise before ('[' :: (content ++ ']' :: rest)) = none := by
  by_contra recognised
  obtain ⟨⟨marker, length⟩, recognised⟩ := Option.ne_none_iff_exists'.mp recognised
  obtain ⟨source, after, taken, whole, -⟩ := taken_of_recognise recognised
  obtain ⟨first, behind, firstSpace, rfl⟩ := taken.exists_opening
  cases first with
  | cons c first =>
      simp only [List.cons_append, List.cons.injEq] at whole
      exact ne_opening_of_isSpaceOrTab (firstSpace c List.mem_cons_self) whole.1.symm
  | nil =>
      cases content with
      | nil => simp at whole
      | cons c content =>
          simp only [List.nil_append, List.cons_append, List.cons.injEq, true_and] at whole
          have own := free c List.mem_cons_self
          rw [whole.1] at own
          exact absurd own (by decide)

/-- A token that is no marker stays as it is. -/
theorem cutAfter_slot {before : Option Char} {content rest : Text} (free : BracketFree content)
    (unrecognised : recognise before ((Symbol.slot content).source ++ rest) = none) :
    Piece.cutAfter recognise before 0 ((Symbol.slot content).source ++ rest) =
      (Symbol.slot content).source.map .plain ++ Piece.cutAfter recognise (some ']') 0 rest := by
  have inside (before : Option Char) (text : Text) (free : BracketFree text) :
      Piece.cutAfter recognise before 0 (text ++ ']' :: ']' :: rest) =
        text.map .plain ++ .plain ']' :: .plain ']' :: Piece.cutAfter recognise (some ']') 0 rest := by
    induction text generalizing before with
    | nil =>
        have closing (before : Option Char) (rest : Text) : recognise before (']' :: rest) = none :=
          recognise_inside BracketFree.nil rest
        rw [List.nil_append, cutAfter_of_unrecognised (closing _ _),
          cutAfter_of_unrecognised (closing _ _)]
        rfl
    | cons c text ih =>
        have unrecognised : recognise before (c :: (text ++ ']' :: ']' :: rest)) = none :=
          recognise_inside free (']' :: rest)
        rw [List.cons_append, cutAfter_of_unrecognised unrecognised,
          ih _ fun other member => free other (List.mem_cons_of_mem c member)]
        rfl
  have whole : (Symbol.slot content).source ++ rest =
      '[' :: '[' :: (content ++ ']' :: ']' :: rest) := by
    simp [Symbol.source]
  rw [whole] at unrecognised ⊢
  rw [cutAfter_of_unrecognised unrecognised, cutAfter_of_unrecognised (recognise_second free _),
    inside _ content free]
  simp [Symbol.source]

section Suffix

variable {symbols : List Symbol} (bears : ∀ symbol ∈ symbols, symbol.Bears isBracket kept)
include bears

theorem exists_suffix_of_free {first rest : Text} (free : BracketFree first)
    (whole : Symbol.written symbols = first ++ rest) :
    ∃ later, later <:+ symbols ∧ rest = Symbol.written later := by
  induction first generalizing symbols with
  | nil => exact ⟨symbols, List.suffix_refl _, whole.symm⟩
  | cons c first ih =>
      cases symbols with
      | nil => simp at whole
      | cons symbol symbols =>
          have own := bears symbol List.mem_cons_self
          cases symbol with
          | char d =>
              obtain ⟨rfl, rest⟩ := List.cons.inj
                (show d :: Symbol.written symbols = c :: (first ++ rest) from whole)
              obtain ⟨later, suffix, isRest⟩ :=
                ih (fun other member => bears other (List.mem_cons_of_mem _ member))
                  (fun other member => free other (List.mem_cons_of_mem _ member)) rest
              exact ⟨later, suffix.trans (List.suffix_cons _ _), isRest⟩
          | slot content =>
              obtain ⟨rfl, -⟩ := List.cons.inj
                (show '[' :: _ = c :: (first ++ rest) from whole)
              exact absurd (free '[' List.mem_cons_self) (by decide)

theorem exists_suffix_of_bracketed {source rest : Text} (bracketed : IsBracketed source)
    (whole : Symbol.written symbols = source ++ rest) :
    ∃ symbol later, symbols = symbol :: later ∧ rest = Symbol.written later := by
  cases symbols with
  | nil =>
      obtain ⟨body, -, rfl⟩ := bracketed
      simp at whole
  | cons symbol symbols =>
      have own := bears symbol List.mem_cons_self
      cases symbol with
      | char d =>
          obtain ⟨body, -, rfl⟩ := bracketed
          obtain ⟨rfl, -⟩ := List.cons.inj (show d :: Symbol.written symbols = '[' :: _ from whole)
          exact absurd (show isBracket '[' = false from own) (by decide)
      | slot content =>
          have slotBracketed : IsBracketed (Symbol.slot content).source := ⟨content, own.1.bracketFree, rfl⟩
          have split : (Symbol.slot content).source ++ Symbol.written symbols = source ++ rest := whole
          obtain ⟨-, rfl⟩ := slotBracketed.append_inj bracketed split
          exact ⟨_, symbols, rfl, rfl⟩

theorem exists_suffix_of_taken {source rest : Text} (taken : Taken rest source)
    (whole : Symbol.written symbols = source ++ rest) :
    ∃ later, later <:+ symbols ∧ later.length < symbols.length ∧ rest = Symbol.written later := by
  cases taken with
  | marker accepted =>
      obtain ⟨symbol, later, rfl, isRest⟩ :=
        exists_suffix_of_bracketed bears accepted.isBracketed whole
      exact ⟨later, List.suffix_cons _ _, by simp, isRest⟩
  | @line first source last lineEnd firstSpace accepted lastSpace ends =>
      have spaceFree {spaces : Text} (allSpace : ∀ c ∈ spaces, isSpaceOrTab c = true) :
          BracketFree spaces := by
        intro c member
        have space := allSpace c member
        by_contra isMark
        rcases isBracket_iff.mp (by simpa using isMark) with rfl | rfl
        · exact absurd space (by decide)
        · exact absurd space (by decide)
      have endFree : BracketFree lineEnd := by
        rcases ends with rfl | rfl | ⟨rfl, -⟩ <;> decide
      obtain ⟨atMarker, suffix, isMarker⟩ := exists_suffix_of_free bears (spaceFree firstSpace)
        (whole.trans (List.append_assoc _ _ _))
      have bearsLater : ∀ symbol ∈ atMarker, symbol.Bears isBracket kept :=
        fun symbol member => bears symbol (suffix.subset member)
      obtain ⟨symbol, behind, rfl, isBehind⟩ := exists_suffix_of_bracketed bearsLater
        accepted.isBracketed (isMarker.symm.trans (List.append_assoc _ _ _))
      obtain ⟨later, laterSuffix, isRest⟩ := exists_suffix_of_free
        (fun other member => bearsLater other (List.mem_cons_of_mem symbol member))
        ((spaceFree lastSpace).append endFree) isBehind.symm
      have shorter := suffix.length_le
      have laterShorter := laterSuffix.length_le
      rw [List.length_cons] at shorter
      exact ⟨later, laterSuffix.trans ((List.suffix_cons _ _).trans suffix), by omega, isRest⟩

end Suffix

end NumberingMarker

namespace Numbering

theorem bracketFree_write {label : Text} (labelFree : BracketFree label) (state : NumberingState)
    (marker : NumberingMarker) : BracketFree (write label state marker) := by
  have point : BracketFree ['.'] := by decide
  have space : BracketFree [' '] := by decide
  cases marker with
  | article =>
      rw [write, Numbering.label]
      split
      · exact (Clean.ofNat _).bracketFree
      · exact labelFree.append (space.append (Clean.ofNat _).bracketFree)
  | subarticle => exact (Clean.ofNat _).bracketFree.append (point.append (Clean.ofNat _).bracketFree)
  | articleNumber => exact (Clean.ofNat _).bracketFree
  | reset => exact BracketFree.nil

theorem numberPieces_plains (label : Text) (state : NumberingState) (text : Text)
    (pieces : List (Piece NumberingMarker)) :
    (numberPieces label state (text.map .plain ++ pieces)).1 =
      text ++ (numberPieces label state pieces).1 := by
  induction text with
  | nil => rfl
  | cons c text ih => simp [numberPieces, ih]

open NumberingMarker

theorem tokenised_numberPieces {label : Text} (labelFree : BracketFree label) {symbols : List Symbol}
    (bears : ∀ symbol ∈ symbols, symbol.Bears isBracket kept) (before : Option Char)
    (state : NumberingState) :
    Tokenised isBracket (fun content => kept content ∧ ¬ Accepted (Symbol.slot content).source)
      (numberPieces label state (Piece.cutAfter recognise before 0 (Symbol.written symbols))).1 := by
  -- a marker may take symbols behind it along, so the induction is on the number of symbols
  induction size : symbols.length using Nat.strong_induction_on generalizing symbols before state with
  | h size ih =>
      subst size
      cases recognised : recognise before (Symbol.written symbols) with
      | some found =>
          obtain ⟨marker, length⟩ := found
          obtain ⟨source, rest, taken, whole, rfl⟩ := taken_of_recognise recognised
          obtain ⟨later, suffix, shorter, rfl⟩ := exists_suffix_of_taken bears taken whole
          rw [whole] at recognised ⊢
          rw [cutAfter_of_recognised taken.ne_nil recognised, numberPieces]
          exact (Tokenised.of_lacks (bracketFree_write labelFree _ marker)).append
            (ih _ shorter (fun symbol member => bears symbol (suffix.subset member)) _ _ rfl)
      | none =>
          cases symbols with
          | nil => exact .of_lacks Lacks.nil
          | cons symbol symbols =>
              have own := bears symbol List.mem_cons_self
              have later (before : Option Char) := ih symbols.length (by simp)
                (fun other member => bears other (List.mem_cons_of_mem symbol member)) before state rfl
              cases symbol with
              | char c =>
                  have unrecognised : recognise before (c :: Symbol.written symbols) = none :=
                    recognised
                  have isCut := cutAfter_of_unrecognised unrecognised
                  rw [show Symbol.written (.char c :: symbols) = c :: Symbol.written symbols from rfl,
                    isCut]
                  exact (Tokenised.of_lacks (Lacks.cons own Lacks.nil)).append (later (some c))
              | slot content =>
                  have unrecognised : recognise before
                      ((Symbol.slot content).source ++ Symbol.written symbols) = none := recognised
                  have noMarker : ¬ Accepted (Symbol.slot content).source := by
                    intro accepted
                    refine bracketed?_of_accepted accepted (Symbol.written symbols) ?_
                    rw [recognise] at unrecognised
                    split at unrecognised
                    · cases unrecognised
                    · exact Option.map_eq_none_iff.mp unrecognised
                  rw [show Symbol.written (.slot content :: symbols) =
                      (Symbol.slot content).source ++ Symbol.written symbols from rfl,
                    cutAfter_slot own.1.bracketFree unrecognised, numberPieces_plains]
                  exact (Tokenised.of_slot own.1 fun isToken => ⟨own.2 isToken, noMarker⟩).append
                    (later (some ']'))

/-- Numbering keeps a text tokenised and leaves no marker. -/
theorem tokenised_number {label : Text} (labelFree : BracketFree label)
    (tokenised : Tokenised isBracket kept text) (state : NumberingState) :
    Tokenised isBracket (fun content => kept content ∧ ¬ Accepted (Symbol.slot content).source)
      (number label state text).1 := by
  obtain ⟨symbols, rfl, bears⟩ := tokenised
  exact tokenised_numberPieces labelFree bears none state

end Numbering

end Covenant
