import Covenant.Proofs.Numbering.Marker
import Covenant.Proofs.Template.Part

/-!
# Where the markers of a text are

`Divided` says how a text falls into markers and other characters: from left to right, a line
that holds nothing but a reset marker is taken whole, any other marker is taken as it is written,
and every other character stands for itself.  There is exactly one such division, and it is the
one that the recogniser finds.  A reset marker that is alone on its line is always taken with the
line: no marker before it can reach beyond the line break in front.
-/

namespace Covenant

/-- Before the first character, and after a line feed, a line starts. -/
def StartsLine (before : Option Char) : Prop := before = none ∨ before = some '\n'

namespace NumberingMarker

/-- A line that holds nothing but a reset marker, with the line break if one follows; `rest` is
the text after it. -/
inductive ResetLine (rest : Text) : Text → Prop where
  | intro (first marker last lineEnd : Text) (firstSpace : ∀ c ∈ first, isSpaceOrTab c = true)
      (written : Written .reset marker) (lastSpace : ∀ c ∈ last, isSpaceOrTab c = true)
      (ends : lineEnd = ['\n'] ∨ lineEnd = ['\r', '\n'] ∨ lineEnd = [] ∧ rest = []) :
      ResetLine rest (first ++ (marker ++ (last ++ lineEnd)))

def MarkerAt (text : Text) : Prop :=
  ∃ marker source rest, text = source ++ rest ∧ Written marker source

def ResetLineAt (before : Option Char) (text : Text) : Prop :=
  StartsLine before ∧ ∃ source rest, text = source ++ rest ∧ ResetLine rest source

/-- The division of the text that follows a character into markers and other characters. -/
inductive Divided : Option Char → Text → List (Piece NumberingMarker) → Prop where
  | nil {before : Option Char} : Divided before [] []
  | line {before : Option Char} {source rest : Text} {pieces : List (Piece NumberingMarker)}
      (starts : StartsLine before) (line : ResetLine rest source)
      (later : Divided source.getLast? rest pieces) :
      Divided before (source ++ rest) (.token .reset source :: pieces)
  | marker {before : Option Char} {marker : NumberingMarker} {source rest : Text}
      {pieces : List (Piece NumberingMarker)} (noLine : ¬ ResetLineAt before (source ++ rest))
      (written : Written marker source) (later : Divided source.getLast? rest pieces) :
      Divided before (source ++ rest) (.token marker source :: pieces)
  | plain {before : Option Char} {c : Char} {rest : Text} {pieces : List (Piece NumberingMarker)}
      (noLine : ¬ ResetLineAt before (c :: rest)) (noMarker : ¬ MarkerAt (c :: rest))
      (later : Divided (some c) rest pieces) : Divided before (c :: rest) (.plain c :: pieces)

/-! ### What is recognised -/

theorem AsciiMarkers.drop {first rest : Text} (ascii : AsciiMarkers (first ++ rest)) :
    AsciiMarkers rest := by
  intro before word source after whole
  exact ascii (first ++ before) word source after (by simp [whole])

theorem AsciiMarkers.tail {c : Char} {rest : Text} (ascii : AsciiMarkers (c :: rest)) :
    AsciiMarkers rest :=
  AsciiMarkers.drop (show AsciiMarkers ([c] ++ rest) from ascii)

theorem mem_spellings_of_ascii {word spelling : Text} (member : spelling ∈ spellings.map (·.1))
    (ascii : ∀ c ∈ word, c.toNat < 0x80) (spells : Text.Spells spelling word) :
    (Text.lower word, ofWord word) ∈ spellings := by
  have small := (spells_iff_of_ascii (mem_letters member) ascii).mp spells
  obtain ⟨⟨known, marker⟩, inSpellings, rfl⟩ := List.mem_map.mp member
  obtain rfl : Text.lower word = known := small
  rwa [ofWord_of_mem inSpellings]

theorem Written.exists_spells {marker : NumberingMarker} {source : Text}
    (written : Written marker source) :
    ∃ spelling word, (spelling, marker) ∈ spellings ∧ Text.Spells spelling word ∧
      Encloses word source ∧ marker = ofWord word := by
  obtain ⟨word, member, ascii, encloses⟩ := written
  have isLetters := mem_letters (List.mem_map_of_mem (f := (·.1)) member)
  exact ⟨_, word, member, (spells_iff_of_ascii isLetters ascii).mpr rfl, encloses,
    (ofWord_of_mem member).symm⟩

/-- Recognising one of several spellings is finding a marker that has one of them. -/
theorem findSome?_spelled?_iff_written {tried : List Text} {text rest : Text}
    (ascii : AsciiMarkers text) {marker : NumberingMarker}
    (known : ∀ spelling ∈ tried, spelling ∈ spellings.map (·.1)) :
    tried.findSome? (spelled? text) = some (marker, rest) ↔
      ∃ source, text = source ++ rest ∧ Written marker source ∧
        ∃ word, Text.lower word ∈ tried ∧ Encloses word source ∧ ∀ c ∈ word, c.toNat < 0x80 := by
  rw [findSome?_spelled?_eq_some_iff known]
  constructor
  · rintro ⟨spelling, inTried, found⟩
    have member := known spelling inTried
    obtain ⟨word, source, spells, encloses, rfl, rfl⟩ := (spelled?_eq_some_iff member).mp found
    have small := ascii [] word source rest rfl ⟨spelling, member, spells⟩ encloses
    have isSpelling := (spells_iff_of_ascii (mem_letters member) small).mp spells
    exact ⟨source, rfl, ⟨word, mem_spellings_of_ascii member small spells, small, encloses⟩, word,
      isSpelling ▸ inTried, encloses, small⟩
  · rintro ⟨source, rfl, ⟨word, member, small, encloses⟩, other, inTried, otherEncloses, otherSmall⟩
    have isKnown := known _ inTried
    have spells := (spells_iff_of_ascii (mem_letters isKnown) otherSmall).mpr rfl
    have wordKnown := List.mem_map_of_mem (f := (·.1)) member
    have wordSpells := (spells_iff_of_ascii (mem_letters wordKnown) small).mpr rfl
    have same : source ++ [] = source ++ [] := rfl
    obtain ⟨rfl, -, -⟩ := Encloses.unique (isWordChar_of_spells wordKnown wordSpells)
      (isWordChar_of_spells isKnown spells) (Spells.ne_nil wordKnown wordSpells)
      (Spells.ne_nil isKnown spells) encloses otherEncloses same
    exact ⟨_, inTried, (spelled?_eq_some_iff isKnown).mpr
      ⟨word, source, spells, encloses, rfl, (ofWord_of_mem member).symm⟩⟩

theorem bracketed?_eq_some_iff {text rest : Text} (ascii : AsciiMarkers text)
    {marker : NumberingMarker} :
    bracketed? text = some (marker, rest) ↔ ∃ source, text = source ++ rest ∧ Written marker source := by
  have asList : bracketed? text = (spellings.map (·.1)).findSome? (spelled? text) := by
    rw [List.findSome?_map]
    rfl
  rw [asList, findSome?_spelled?_iff_written ascii fun _ member => member]
  constructor
  · rintro ⟨source, whole, written, -⟩
    exact ⟨source, whole, written⟩
  · rintro ⟨source, whole, written⟩
    obtain ⟨word, member, small, encloses⟩ := written
    exact ⟨source, whole, ⟨word, member, small, encloses⟩, word,
      List.mem_map_of_mem (f := (·.1)) member, encloses, small⟩

theorem isReset_iff {word : Text} :
    Text.lower word ∈ resetSpellings ↔ (Text.lower word, NumberingMarker.reset) ∈ spellings := by
  simp [resetSpellings, spellings]

theorem mem_spellings_of_mem_resetSpellings :
    ∀ spelling ∈ resetSpellings, spelling ∈ spellings.map (·.1) := by
  decide +kernel

theorem afterLineEnd?_eq_some_iff {text rest : Text} :
    afterLineEnd? text = some rest ↔
      ∃ lineEnd : Text, (lineEnd = ['\n'] ∨ lineEnd = ['\r', '\n'] ∨ lineEnd = [] ∧ rest = []) ∧
        text = lineEnd ++ rest := by
  constructor
  · intro read
    unfold afterLineEnd? at read
    split at read
    · exact ⟨[], by simp_all⟩
    · exact ⟨['\n'], by simp_all⟩
    · exact ⟨['\r', '\n'], by simp_all⟩
    · simp at read
  · rintro ⟨lineEnd, rfl | rfl | ⟨rfl, rfl⟩, rfl⟩ <;> rfl

theorem dropWhile_isSpaceOrTab {spaces rest : Text} (allSpace : ∀ c ∈ spaces, isSpaceOrTab c = true)
    (stops : ∀ c ∈ rest.head?, isSpaceOrTab c = false) :
    (spaces ++ rest).dropWhile isSpaceOrTab = rest := by
  rw [List.dropWhile_append_of_pos allSpace]
  cases rest with
  | nil => rfl
  | cons c rest => exact List.dropWhile_cons_of_neg (by simp [stops c (by simp)])

theorem Encloses.head? {word source : Text} (encloses : Encloses word source) (rest : Text) :
    (source ++ rest).head? = some '[' := by
  cases encloses
  rfl

theorem Written.head? {marker : NumberingMarker} {source : Text} (written : Written marker source)
    (rest : Text) : (source ++ rest).head? = some '[' := by
  obtain ⟨word, -, -, encloses⟩ := written
  exact encloses.head? rest

theorem resetLine?_eq_some_iff {text rest : Text} (ascii : AsciiMarkers text) :
    resetLine? text = some rest ↔ ∃ source, text = source ++ rest ∧ ResetLine rest source := by
  have spaces (text : Text) : ∀ c ∈ text.takeWhile isSpaceOrTab, isSpaceOrTab c = true :=
    fun c member => List.mem_takeWhile_imp member
  have whole (text : Text) : text = text.takeWhile isSpaceOrTab ++ text.dropWhile isSpaceOrTab :=
    (List.takeWhile_append_dropWhile).symm
  constructor
  · intro read
    simp only [resetLine?, Option.bind_eq_bind, Option.bind_eq_some_iff] at read
    obtain ⟨⟨marker, behind⟩, found, ended⟩ := read
    have start : AsciiMarkers (text.dropWhile isSpaceOrTab) := by
      rw [whole text] at ascii
      exact ascii.drop
    obtain ⟨source, isSource, -, word, isReset, encloses, small⟩ :=
      (findSome?_spelled?_iff_written start mem_spellings_of_mem_resetSpellings).mp found
    obtain ⟨lineEnd, ends, isEnd⟩ := afterLineEnd?_eq_some_iff.mp ended
    have isBehind : behind.takeWhile isSpaceOrTab ++ (lineEnd ++ rest) = behind := by
      rw [← isEnd, ← whole]
    refine ⟨_, ?_, .intro (text.takeWhile isSpaceOrTab) source (behind.takeWhile isSpaceOrTab)
      lineEnd (spaces text) ⟨word, isReset_iff.mp isReset, small, encloses⟩ (spaces behind) ends⟩
    simp only [List.append_assoc]
    rw [isBehind, ← isSource, ← whole]
  · rintro ⟨_, rfl, ⟨first, marker, last, lineEnd, firstSpace, written, lastSpace, ends⟩⟩
    simp only [List.append_assoc] at ascii ⊢
    have atMarker : (first ++ (marker ++ (last ++ (lineEnd ++ rest)))).dropWhile isSpaceOrTab =
        marker ++ (last ++ (lineEnd ++ rest)) := by
      apply dropWhile_isSpaceOrTab firstSpace
      rw [written.head?]
      simp [isSpaceOrTab]
    have found : resetSpellings.findSome? (spelled? (marker ++ (last ++ (lineEnd ++ rest)))) =
        some (.reset, last ++ (lineEnd ++ rest)) := by
      obtain ⟨word, member, small, encloses⟩ := written
      exact (findSome?_spelled?_iff_written ascii.drop mem_spellings_of_mem_resetSpellings).mpr
        ⟨marker, rfl, ⟨word, member, small, encloses⟩, word, isReset_iff.mpr member, encloses, small⟩
    have atEnd : (last ++ (lineEnd ++ rest)).dropWhile isSpaceOrTab = lineEnd ++ rest := by
      apply dropWhile_isSpaceOrTab lastSpace
      rcases ends with rfl | rfl | ⟨rfl, rfl⟩ <;> simp [isSpaceOrTab]
    simp only [resetLine?, atMarker, found, Option.bind_eq_bind, Option.bind_some, atEnd]
    exact afterLineEnd?_eq_some_iff.mpr ⟨lineEnd, ends, rfl⟩

theorem all_isLineFeed_iff (before : Option Char) :
    before.all (· = '\n') = true ↔ StartsLine before := by
  cases before <;> simp [StartsLine]

section Recognise

variable {before : Option Char} {source rest : Text}

theorem recognise_of_resetLine (ascii : AsciiMarkers (source ++ rest)) (starts : StartsLine before)
    (line : ResetLine rest source) :
    recognise before (source ++ rest) = some (.reset, source.length) := by
  have found := (resetLine?_eq_some_iff ascii).mpr ⟨source, rfl, line⟩
  simp [recognise, (all_isLineFeed_iff before).mpr starts, found]

theorem resetLine_eq_none {text : Text} (ascii : AsciiMarkers text)
    (noLine : ¬ ResetLineAt before text) :
    (if before.all (· = '\n') then resetLine? text else none) = none := by
  split
  · rename_i starts
    cases found : resetLine? text with
    | none => rfl
    | some rest =>
        obtain ⟨source, whole, line⟩ := (resetLine?_eq_some_iff ascii).mp found
        exact absurd ⟨(all_isLineFeed_iff before).mp starts, source, rest, whole, line⟩ noLine
  · rfl

theorem recognise_of_written {marker : NumberingMarker} (ascii : AsciiMarkers (source ++ rest))
    (noLine : ¬ ResetLineAt before (source ++ rest)) (written : Written marker source) :
    recognise before (source ++ rest) = some (marker, source.length) := by
  have found := (bracketed?_eq_some_iff ascii).mpr ⟨source, rfl, written⟩
  simp [recognise, resetLine_eq_none ascii noLine, found]

theorem recognise_of_neither {text : Text} (ascii : AsciiMarkers text)
    (noLine : ¬ ResetLineAt before text) (noMarker : ¬ MarkerAt text) :
    recognise before text = none := by
  have notFound : bracketed? text = none := by
    cases found : bracketed? text with
    | none => rfl
    | some pair =>
        obtain ⟨source, whole, written⟩ := (bracketed?_eq_some_iff ascii).mp found
        exact absurd ⟨pair.1, source, pair.2, whole, written⟩ noMarker
  simp [recognise, resetLine_eq_none ascii noLine, notFound]

end Recognise

/-! ### The division is what the recogniser finds -/

theorem Written.ne_nil {marker : NumberingMarker} {source : Text} (written : Written marker source) :
    source ≠ [] := by
  obtain ⟨word, -, -, encloses⟩ := written
  exact encloses.ne_nil

theorem ResetLine.ne_nil {rest source : Text} (line : ResetLine rest source) : source ≠ [] := by
  obtain ⟨first, marker, last, lineEnd, -, written, -, -⟩ := line
  simp [written.ne_nil]

theorem cutAfter_skip (before : Option Char) (source rest : Text) :
    Piece.cutAfter recognise before source.length (source ++ rest) =
      Piece.cutAfter recognise (source.getLast?.or before) 0 rest := by
  induction source generalizing before with
  | nil => rfl
  | cons c source ih =>
      have later := ih (some c)
      rw [List.length_cons, List.cons_append, Piece.cutAfter, later, List.getLast?_cons]
      cases source.getLast? <;> rfl

theorem cutAfter_of_recognised {before : Option Char} {marker : NumberingMarker}
    {source rest : Text} (filled : source ≠ [])
    (recognised : recognise before (source ++ rest) = some (marker, source.length)) :
    Piece.cutAfter recognise before 0 (source ++ rest) =
      .token marker source :: Piece.cutAfter recognise source.getLast? 0 rest := by
  obtain ⟨c, source, rfl⟩ := List.exists_cons_of_ne_nil filled
  simp only [List.cons_append, List.length_cons] at recognised
  have behind := cutAfter_skip (some c) source rest
  simp only [List.cons_append, Piece.cutAfter, recognised, behind, List.getLast?_cons]
  have wholeSource : (c :: (source ++ rest)).take (source.length + 1) = c :: source := by simp
  rw [wholeSource]
  cases source.getLast? <;> rfl

theorem cutAfter_of_unrecognised {before : Option Char} {c : Char} {rest : Text}
    (unrecognised : recognise before (c :: rest) = none) :
    Piece.cutAfter recognise before 0 (c :: rest) =
      .plain c :: Piece.cutAfter recognise (some c) 0 rest := by
  simp [Piece.cutAfter, unrecognised]

theorem Divided.eq_cutAfter {before : Option Char} {text : Text}
    {pieces : List (Piece NumberingMarker)} (divided : Divided before text pieces)
    (ascii : AsciiMarkers text) : pieces = Piece.cutAfter recognise before 0 text := by
  induction divided with
  | nil => rfl
  | line starts line later ih =>
      rw [ih ascii.drop, cutAfter_of_recognised line.ne_nil (recognise_of_resetLine ascii starts line)]
  | marker noLine written later ih =>
      rw [ih ascii.drop,
        cutAfter_of_recognised written.ne_nil (recognise_of_written ascii noLine written)]
  | @plain before c rest pieces noLine noMarker later ih =>
      rw [ih ascii.tail,
        cutAfter_of_unrecognised (recognise_of_neither ascii noLine noMarker)]

theorem divided_cutAfter (before : Option Char) (text : Text) (ascii : AsciiMarkers text) :
    Divided before text (Piece.cutAfter recognise before 0 text) := by
  -- A whole line, a marker or one character is taken off, so the text gets shorter.
  induction size : text.length using Nat.strong_induction_on generalizing before text with
  | h size ih =>
      subst size
      by_cases hasLine : ResetLineAt before text
      · obtain ⟨starts, source, rest, rfl, line⟩ := hasLine
        have shorter : rest.length < (source ++ rest).length := by
          simpa using List.length_pos_iff.mpr line.ne_nil
        rw [cutAfter_of_recognised line.ne_nil (recognise_of_resetLine ascii starts line)]
        exact .line starts line (ih _ shorter _ _ ascii.drop rfl)
      · by_cases hasMarker : MarkerAt text
        · obtain ⟨marker, source, rest, rfl, written⟩ := hasMarker
          have shorter : rest.length < (source ++ rest).length := by
            simpa using List.length_pos_iff.mpr written.ne_nil
          rw [cutAfter_of_recognised written.ne_nil (recognise_of_written ascii hasLine written)]
          exact .marker hasLine written (ih _ shorter _ _ ascii.drop rfl)
        · cases text with
          | nil => exact .nil
          | cons c rest =>
              rw [cutAfter_of_unrecognised (recognise_of_neither ascii hasLine hasMarker)]
              exact .plain hasLine hasMarker
                (ih _ (by simp) _ _ ascii.tail rfl)

/-- A text is divided in one way, and that is how it is cut. -/
theorem divided_iff_eq_cut {text : Text} (ascii : AsciiMarkers text)
    (pieces : List (Piece NumberingMarker)) :
    Divided none text pieces ↔ pieces = Piece.cut recognise text := by
  constructor
  · intro divided
    exact divided.eq_cutAfter ascii
  · rintro rfl
    exact divided_cutAfter none text ascii

/-! ### Reset markers that are alone on their line -/

/-- After a line break inside the text, the first character that is not blank is no opening
bracket, whatever follows the text. -/
def BreaksInside : Text → Prop
  | [] => True
  | c :: text =>
      (c = '\n' → text ≠ [] → ∀ rest, (Text.trimStart (text ++ rest)).head? ≠ some '[') ∧
        BreaksInside text

theorem BreaksInside.head?_ne {first last : Text} (breaks : BreaksInside (first ++ '\n' :: last))
    (filled : last ≠ []) (rest : Text) : (Text.trimStart (last ++ rest)).head? ≠ some '[' := by
  induction first with
  | nil => exact breaks.1 rfl filled rest
  | cons c first ih => exact ih breaks.2

theorem BreaksInside.of_no_break {text behind : Text} (noBreak : ∀ c ∈ text, c ≠ '\n')
    (breaks : BreaksInside behind) : BreaksInside (text ++ behind) := by
  induction text with
  | nil => exact breaks
  | cons c text ih =>
      exact ⟨fun isBreak => absurd isBreak (noBreak c (by simp)),
        ih fun other member => noBreak other (by simp [member])⟩

/-- Blank characters may hold line breaks if what follows them does not open a bracket. -/
theorem BreaksInside.of_blank {blanks : Text} (allBlank : ∀ c ∈ blanks, isBlank c = true)
    {c : Char} {behind : Text} (notBlank : isBlank c = false) (notOpening : c ≠ '[')
    (breaks : BreaksInside (c :: behind)) : BreaksInside (blanks ++ c :: behind) := by
  induction blanks with
  | nil => exact breaks
  | cons b blanks ih =>
      have more : ∀ d ∈ blanks, isBlank d = true := fun d member => allBlank d (by simp [member])
      refine ⟨fun _ _ rest => ?_, ih more⟩
      change (Text.trimStart (blanks ++ c :: behind ++ rest)).head? ≠ some '['
      rw [List.append_assoc, Text.trimStart_blanks_append more, List.cons_append,
        Text.trimStart_of_not_blank notBlank]
      simpa using notOpening

theorem Encloses.breaksInside {word source behind : Text} (filled : word ≠ [])
    (wordChars : ∀ c ∈ word, IsWordChar c) (encloses : Encloses word source)
    (breaks : BreaksInside behind) : BreaksInside (source ++ behind) := by
  obtain ⟨first, last, firstBlank, lastBlank⟩ := encloses
  have closing : BreaksInside (']' :: ']' :: behind) := ⟨nofun, nofun, breaks⟩
  have afterWord : BreaksInside (last ++ ']' :: ']' :: behind) :=
    .of_blank lastBlank (by decide) (by decide) closing
  have noBreak : ∀ c ∈ word, c ≠ '\n' := by
    rintro c member rfl
    exact absurd (wordChars _ member).1 (by decide)
  have fromWord := BreaksInside.of_no_break noBreak afterWord
  obtain ⟨c, word, rfl⟩ := List.exists_cons_of_ne_nil filled
  have notOpening : c ≠ '[' := by
    rintro rfl
    exact absurd (wordChars '[' (by simp)).2 (by decide)
  have fromFirst := BreaksInside.of_blank firstBlank (wordChars c (by simp)).1 notOpening fromWord
  simpa using (show BreaksInside ('[' :: '[' :: (first ++ (c :: word ++ (last ++ ']' :: ']' :: behind))))
    from ⟨nofun, nofun, fromFirst⟩)

theorem Written.breaksInside {marker : NumberingMarker} {source behind : Text}
    (written : Written marker source) (breaks : BreaksInside behind) :
    BreaksInside (source ++ behind) := by
  obtain ⟨spelling, word, member, spells, encloses, -⟩ := written.exists_spells
  have known := List.mem_map_of_mem (f := (·.1)) member
  exact encloses.breaksInside (Spells.ne_nil known spells) (isWordChar_of_spells known spells) breaks

theorem ne_lineFeed_of_isSpaceOrTab {c : Char} (space : isSpaceOrTab c = true) : c ≠ '\n' := by
  rintro rfl
  exact absurd space (by decide)

theorem ResetLine.breaksInside {rest source : Text} (line : ResetLine rest source) :
    BreaksInside source := by
  obtain ⟨first, marker, last, lineEnd, firstSpace, written, lastSpace, ends⟩ := line
  have atEnd : BreaksInside lineEnd := by
    rcases ends with rfl | rfl | ⟨rfl, -⟩
    · exact ⟨fun _ filled => absurd rfl filled, trivial⟩
    · exact ⟨nofun, fun _ filled => absurd rfl filled, trivial⟩
    · trivial
  have afterMarker := BreaksInside.of_no_break
    (fun c member => ne_lineFeed_of_isSpaceOrTab (lastSpace c member)) atEnd
  exact .of_no_break (fun c member => ne_lineFeed_of_isSpaceOrTab (firstSpace c member))
    (written.breaksInside afterMarker)

theorem ResetLine.head?_trimStart {rest line : Text} (isLine : ResetLine rest line) :
    (Text.trimStart (line ++ rest)).head? = some '[' := by
  obtain ⟨first, marker, last, lineEnd, firstSpace, written, lastSpace, ends⟩ := isLine
  have firstBlank : ∀ c ∈ first, isBlank c = true := by
    intro c member
    have space := firstSpace c member
    simp only [isSpaceOrTab, Bool.or_eq_true, decide_eq_true_eq] at space
    rcases space with rfl | rfl <;> decide
  obtain ⟨word, -, -, ⟨blanks, blanksAfter, -, -⟩⟩ := written
  rw [List.append_assoc, Text.trimStart_blanks_append firstBlank]
  simp only [List.cons_append]
  rw [Text.trimStart_of_not_blank (by decide)]
  rfl

/-- A piece of a text that starts before a line with a reset marker ends before it too. -/
theorem exists_append_of_breaksInside {source rest first line behind : Text}
    (breaks : BreaksInside source) (isLine : ResetLine behind line)
    (startsLine : first.getLast? = some '\n') (same : source ++ rest = first ++ (line ++ behind)) :
    ∃ between, first = source ++ between ∧ rest = between ++ (line ++ behind) := by
  rcases List.append_eq_append_iff.mp same with ⟨between, rfl, rfl⟩ | ⟨excess, rfl, sameRest⟩
  · exact ⟨between, rfl, rfl⟩
  · obtain ⟨start, rfl⟩ := List.getLast?_eq_some_iff.mp startsLine
    cases excess with
    | nil => exact ⟨[], by simp, by simpa using sameRest.symm⟩
    | cons c excess =>
        rw [List.append_assoc, List.singleton_append] at breaks
        have opens := isLine.head?_trimStart
        rw [sameRest] at opens
        exact absurd opens (breaks.head?_ne (by simp) rest)

theorem ResetLine.unique {line other behind otherBehind : Text} (ascii : AsciiMarkers (line ++ behind))
    (isLine : ResetLine behind line) (isOther : ResetLine otherBehind other)
    (same : line ++ behind = other ++ otherBehind) : line = other ∧ behind = otherBehind := by
  have found := (resetLine?_eq_some_iff ascii).mpr ⟨line, rfl, isLine⟩
  have otherFound := (resetLine?_eq_some_iff ascii).mpr ⟨other, same, isOther⟩
  obtain rfl : behind = otherBehind := by simpa [found] using otherFound
  exact ⟨List.append_cancel_right same, rfl⟩

/-- A line with nothing but a reset marker is one piece of the division. -/
theorem Divided.exists_resetLine {before : Option Char} {text : Text}
    {pieces : List (Piece NumberingMarker)} (divided : Divided before text pieces)
    (ascii : AsciiMarkers text) {first line behind : Text}
    (whole : text = first ++ (line ++ behind)) (isLine : ResetLine behind line)
    (starts : StartsLine (first.getLast?.or before)) :
    ∃ earlier later, pieces = earlier ++ .token .reset line :: later ∧
      earlier.flatMap Piece.source = first := by
  induction divided generalizing first with
  | nil =>
      have filled := isLine.ne_nil
      simp_all
  | @line before source rest pieces startsHere isSource later ih =>
      cases first with
      | nil =>
          obtain ⟨rfl, rfl⟩ := isSource.unique ascii isLine whole
          exact ⟨[], pieces, rfl, rfl⟩
      | cons c first =>
          have lineFeed : (c :: first).getLast? = some '\n' := by
            simpa [StartsLine, List.getLast?_cons] using starts
          obtain ⟨between, isFirst, rfl⟩ :=
            exists_append_of_breaksInside isSource.breaksInside isLine lineFeed whole
          have startsLater : StartsLine (between.getLast?.or source.getLast?) := by
            rw [isFirst, List.getLast?_append] at lineFeed
            exact .inr lineFeed
          obtain ⟨earlier, after, rfl, isBetween⟩ := ih ascii.drop rfl startsLater
          exact ⟨.token .reset source :: earlier, after, rfl, by simp [isFirst, isBetween, Piece.source]⟩
  | @marker before marker source rest pieces noLine written later ih =>
      cases first with
      | nil => exact absurd ⟨by simpa using starts, line, behind, by simpa using whole, isLine⟩ noLine
      | cons c first =>
          have lineFeed : (c :: first).getLast? = some '\n' := by
            simpa [StartsLine, List.getLast?_cons] using starts
          have nothing : BreaksInside [] := trivial
          have breaks : BreaksInside source := by simpa using written.breaksInside nothing
          obtain ⟨between, isFirst, rfl⟩ :=
            exists_append_of_breaksInside breaks isLine lineFeed whole
          have startsLater : StartsLine (between.getLast?.or source.getLast?) := by
            rw [isFirst, List.getLast?_append] at lineFeed
            exact .inr lineFeed
          obtain ⟨earlier, after, rfl, isBetween⟩ := ih ascii.drop rfl startsLater
          exact ⟨.token marker source :: earlier, after, rfl, by simp [isFirst, isBetween, Piece.source]⟩
  | @plain before c rest pieces noLine noMarker later ih =>
      cases first with
      | nil => exact absurd ⟨by simpa using starts, line, behind, by simpa using whole, isLine⟩ noLine
      | cons d first =>
          obtain ⟨rfl, rfl⟩ : c = d ∧ rest = first ++ (line ++ behind) := by simpa using whole
          have startsLater : StartsLine (first.getLast?.or (some c)) := by
            rw [List.getLast?_cons] at starts
            cases last : first.getLast? <;> simpa [last] using starts
          obtain ⟨earlier, after, rfl, isFirst⟩ :=
            ih ascii.tail rfl startsLater
          exact ⟨.plain c :: earlier, after, rfl, by simp [isFirst, Piece.source]⟩

theorem Divided.source_eq {before : Option Char} {text : Text}
    {pieces : List (Piece NumberingMarker)} (divided : Divided before text pieces) :
    pieces.flatMap Piece.source = text := by
  induction divided with
  | nil => rfl
  | line starts line later ih => simp [Piece.source, ih]
  | marker noLine written later ih => simp [Piece.source, ih]
  | plain noLine noMarker later ih => simp [Piece.source, ih]

end NumberingMarker

end Covenant
