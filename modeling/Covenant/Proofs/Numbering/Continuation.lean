import Covenant.Proofs.Numbering.Tokens
import Mathlib.Data.List.Infix

/-!
# Numbering a text in two parts

The numbering pass may be called for one part of a text after the other, with the counters of one
call carried to the next.  When the first part ends with a line feed and no marker goes across the
cut, what is recognised in it does not depend on the second part: the blanks behind a marker end at
the latest at that line feed, and so does a line that is taken away with its reset marker.  The
second part starts a line wherever it is numbered.
-/

namespace Covenant.NumberingMarker

variable {text first second : Text}

/-- A marker begins in a text and ends in the text behind it. -/
def MarkerAcross (first second : Text) : Prop :=
  ∃ before front back after, first = before ++ front ∧ second = back ++ after ∧ front ≠ [] ∧
    back ≠ [] ∧ Accepted (front ++ back)

theorem MarkerAcross.of_drop (across : MarkerAcross text second) (front : Text) :
    MarkerAcross (front ++ text) second := by
  obtain ⟨before, begun, back, after, rfl, rest⟩ := across
  exact ⟨front ++ before, begun, back, after, (List.append_assoc ..).symm, rest⟩

/-- Behind two opening brackets in a row there is always a closing one. -/
def ClosesOpenings (text : Text) : Prop :=
  ∀ rest ∈ text.tails, ['[', '['] <+: rest → ']' ∈ rest

instance : DecidablePred ClosesOpenings := fun text =>
  inferInstanceAs (Decidable (∀ rest ∈ text.tails, ['[', '['] <+: rest → ']' ∈ rest))

/-- What begins with two opening brackets and holds a line feed behind a closing one is no marker. -/
theorem not_accepted_of_lineFeed {front back : Text} (closing : ']' ∈ front) :
    ¬ Accepted (front ++ '\n' :: back) := by
  intro accepted
  obtain ⟨body, free, whole⟩ := accepted.isBracketed
  obtain ⟨before, after, rfl⟩ := List.append_of_mem closing
  have noClosing : ∀ c ∈ '[' :: '[' :: body, c ≠ ']' := by
    rintro c member rfl
    exact absurd (free ']' (by simpa using member)) (by decide)
  have split : ('[' :: '[' :: body) ++ [']', ']'] = before ++ ']' :: (after ++ '\n' :: back) := by
    rw [List.append_assoc, List.cons_append] at whole
    simpa using whole.symm
  obtain ⟨between, -, inClosing⟩ := Tokenised.exists_of_append_eq noClosing split
  have member : '\n' ∈ [']', ']'] := by
    rw [inClosing]
    simp
  exact absurd member (by decide)

/-- Markers that have begun in closed lines have ended in them. -/
theorem not_markerAcross_of_closesOpenings (ends : first.getLast? = some '\n')
    (closes : ClosesOpenings first) (second : Text) : ¬ MarkerAcross first second := by
  rintro ⟨before, front, back, after, rfl, -, begins, -, accepted⟩
  rw [List.getLast?_append_of_ne_nil _ begins] at ends
  obtain ⟨start, rfl⟩ := List.getLast?_eq_some_iff.mp ends
  have opens : ['[', '['] <+: start ++ ['\n'] := by
    obtain ⟨body, -, whole⟩ := accepted.isBracketed
    match start, whole with
    | [], whole => exact absurd (List.cons.inj whole).1 (by decide)
    | [_], whole => exact absurd (List.cons.inj (List.cons.inj whole).2).1 (by decide)
    | c :: d :: start, whole =>
        obtain ⟨isOpening, whole⟩ := List.cons.inj whole
        exact ⟨start ++ ['\n'], by rw [isOpening, (List.cons.inj whole).1]; rfl⟩
  have closing := closes _ ((List.mem_tails _ _).mpr (List.suffix_append before _)) opens
  rw [List.append_assoc] at accepted
  exact not_accepted_of_lineFeed (by simpa using closing) accepted

/-! ### What is recognised in the first part -/

theorem findSome?_spelled?_append {tried : List Text}
    (known : ∀ spelling ∈ tried, spelling ∈ spellings.map (·.1)) (filled : first ≠ [])
    (apart : ¬ MarkerAcross first second) :
    tried.findSome? (spelled? (first ++ second)) =
      (tried.findSome? (spelled? first)).map fun (marker, rest) => (marker, rest ++ second) := by
  cases found : tried.findSome? (spelled? first) with
  | some read =>
      obtain ⟨marker, rest⟩ := read
      obtain ⟨spelling, inTried, isRead⟩ := (findSome?_spelled?_eq_some_iff known).mp found
      have isKnown := known spelling inTried
      obtain ⟨word, source, spells, encloses, rfl, rfl⟩ := (spelled?_eq_some_iff isKnown).mp isRead
      refine (findSome?_spelled?_eq_some_iff known).mpr ⟨spelling, inTried, ?_⟩
      exact (spelled?_eq_some_iff isKnown).mpr
        ⟨word, source, spells, encloses, List.append_assoc .., rfl⟩
  | none =>
      by_contra readsMore
      obtain ⟨⟨marker, rest⟩, isRead⟩ := Option.ne_none_iff_exists'.mp readsMore
      obtain ⟨spelling, inTried, isRead⟩ := (findSome?_spelled?_eq_some_iff known).mp isRead
      have isKnown := known spelling inTried
      obtain ⟨word, source, spells, encloses, whole, -⟩ := (spelled?_eq_some_iff isKnown).mp isRead
      have notWithin (inside : Text) : first ≠ source ++ inside := by
        rintro rfl
        have reads : spelled? (source ++ inside) spelling = some (ofWord word, inside) :=
          (spelled?_eq_some_iff isKnown).mpr ⟨word, source, spells, encloses, rfl, rfl⟩
        rw [List.findSome?_eq_none_iff.mp found spelling inTried] at reads
        cases reads
      rcases List.append_eq_append_iff.mp whole with ⟨back, rfl, isSecond⟩ | ⟨inside, isFirst, -⟩
      · refine apart ⟨[], first, back, rest, rfl, isSecond, filled, ?_, spelling, isKnown, word,
          spells, encloses⟩
        rintro rfl
        exact notWithin [] (by simp)
      · exact notWithin inside isFirst

/-- A text that ends with a line feed still does without the spaces in front. -/
theorem exists_dropWhile_append (ends : first.getLast? = some '\n') (second : Text) :
    ∃ spaces start, first = spaces ++ start ∧ start.getLast? = some '\n' ∧
      first.dropWhile isSpaceOrTab = start ∧
      (first ++ second).dropWhile isSpaceOrTab = start ++ second := by
  have stops : first.dropWhile isSpaceOrTab ≠ [] := by
    intro allSpace
    have isSpace := List.dropWhile_eq_nil_iff.mp allSpace '\n' (List.mem_of_getLast? ends)
    exact absurd isSpace (by decide)
  have whole := List.takeWhile_append_dropWhile (p := isSpaceOrTab) (l := first)
  refine ⟨_, _, whole.symm, ?_, rfl, ?_⟩
  · rwa [← whole, List.getLast?_append_of_ne_nil _ stops] at ends
  · rw [List.dropWhile_append, if_neg (by simpa using stops)]

theorem afterLineEnd?_append (ends : first.getLast? = some '\n') (second : Text) :
    afterLineEnd? (first ++ second) = (afterLineEnd? first).map (· ++ second) := by
  obtain ⟨c, rest, rfl⟩ := List.exists_cons_of_ne_nil (List.ne_nil_of_mem (List.mem_of_getLast? ends))
  by_cases isFeed : c = '\n'
  · subst isFeed
    rfl
  by_cases isReturn : c = '\r'
  · subst isReturn
    cases rest with
    | nil => cases ends
    | cons d rest =>
        by_cases feedBehind : d = '\n'
        · subst feedBehind
          rfl
        · simp [afterLineEnd?, feedBehind]
  · simp [afterLineEnd?, isFeed, isReturn]

theorem Accepted.getLast? {source : Text} (accepted : Accepted source) :
    source.getLast? = some ']' := by
  obtain ⟨body, -, rfl⟩ := accepted.isBracketed
  have isConcat : '[' :: '[' :: (body ++ [']', ']']) = ('[' :: '[' :: body ++ [']']) ++ [']'] := by
    simp
  rw [isConcat, List.getLast?_concat]

theorem resetLine?_append (ends : first.getLast? = some '\n') (apart : ¬ MarkerAcross first second) :
    resetLine? (first ++ second) = (resetLine? first).map (· ++ second) := by
  obtain ⟨spaces, start, rfl, startEnds, isStart, isStartAppend⟩ := exists_dropWhile_append ends second
  have filled : start ≠ [] := List.ne_nil_of_mem (List.mem_of_getLast? startEnds)
  have reads := findSome?_spelled?_append mem_spellings_of_mem_resetSpellings filled
    fun across => apart (across.of_drop spaces)
  simp only [resetLine?, isStart, isStartAppend, reads]
  cases found : resetSpellings.findSome? (spelled? start) with
  | none => rfl
  | some read =>
      obtain ⟨marker, rest⟩ := read
      obtain ⟨source, accepted, rfl⟩ :=
        exists_accepted_of_spelled? mem_spellings_of_mem_resetSpellings found
      have restEnds : rest.getLast? = some '\n' := by
        cases rest with
        | nil =>
            rw [List.append_nil, accepted.getLast?] at startEnds
            cases startEnds
        | cons c rest => rwa [List.getLast?_append_of_ne_nil _ (List.cons_ne_nil c rest)] at startEnds
      obtain ⟨-, behind, -, behindEnds, isBehind, isBehindAppend⟩ :=
        exists_dropWhile_append restEnds second
      simp only [Option.map_some, Option.bind_eq_bind, Option.bind_some, isBehind, isBehindAppend]
      exact afterLineEnd?_append behindEnds second

/-- What is recognised in the first part does not depend on the second. -/
theorem recognise_append (before : Option Char) (ends : first.getLast? = some '\n')
    (apart : ¬ MarkerAcross first second) :
    recognise before (first ++ second) = recognise before first := by
  have filled : first ≠ [] := List.ne_nil_of_mem (List.mem_of_getLast? ends)
  have sized (rest : Text) :
      (first ++ second).length - (rest ++ second).length = first.length - rest.length := by
    simp only [List.length_append]
    omega
  have marks : (bracketed? (first ++ second)).map
      (fun (marker, rest) => (marker, (first ++ second).length - rest.length)) =
        (bracketed? first).map fun (marker, rest) => (marker, first.length - rest.length) := by
    rw [bracketed?_eq_findSome?, findSome?_spelled?_append (fun _ member => member) filled apart,
      bracketed?_eq_findSome?, Option.map_map]
    exact congrArg (Option.map · _) (funext fun (marker, rest) => congrArg (marker, ·) (sized rest))
  simp only [recognise, resetLine?_append ends apart, marks]
  by_cases starts : before.all (· = '\n') = true
  · simp only [starts, if_true]
    cases resetLine? first with
    | some rest => simp only [Option.map_some, sized]
    | none => rfl
  · simp only [starts]
    rfl

theorem cutAfter_append (before : Option Char) (skip : Nat) (within : skip ≤ first.length)
    (ends : first ≠ [] → first.getLast? = some '\n') (apart : ¬ MarkerAcross first second) :
    Piece.cutAfter recognise before skip (first ++ second) =
      Piece.cutAfter recognise before skip first ++
        Piece.cutAfter recognise (first.getLast?.or before) 0 second := by
  induction first generalizing before skip with
  | nil =>
      obtain rfl : skip = 0 := Nat.le_zero.mp within
      rfl
  | cons c first ih =>
      have lastOf (place : Option Char) : first.getLast?.or (some c) = (c :: first).getLast?.or place := by
        rw [List.getLast?_cons]
        cases first.getLast? <;> rfl
      have later (skip : Nat) (within : skip ≤ first.length) :=
        ih (some c) skip within
          (fun filled => by
            rw [← ends (List.cons_ne_nil c first), List.getLast?_cons_of_ne_nil filled])
          (fun across => apart (across.of_drop [c]))
      simp only [lastOf before] at later
      cases skip with
      | succ skip => exact later skip (Nat.le_of_succ_le_succ within)
      | zero =>
          have same := recognise_append before (ends (List.cons_ne_nil c first)) apart
          rw [List.cons_append] at same
          rw [List.cons_append, Piece.cutAfter, Piece.cutAfter, same]
          cases recognised : recognise before (c :: first) with
          | none => rw [later 0 (Nat.zero_le _)]; rfl
          | some found =>
              obtain ⟨marker, length⟩ := found
              obtain ⟨source, rest, -, whole, isLength⟩ := taken_of_recognise recognised
              have room : length ≤ first.length + 1 := by
                have size := congrArg List.length whole
                simp only [List.length_cons, List.length_append] at size
                omega
              cases length with
              | zero => rw [later 0 (Nat.zero_le _)]; rfl
              | succ length =>
                  have roomBehind := Nat.le_of_succ_le_succ room
                  simp only [List.take_succ_cons, List.take_append_of_le_length roomBehind,
                    later length roomBehind, List.cons_append]

/-- Behind a line feed a text is cut as it is cut alone. -/
theorem cutAfter_lineFeed (text : Text) :
    Piece.cutAfter recognise (some '\n') 0 text = Piece.cut recognise text := by
  cases text with
  | nil => rfl
  | cons c text => rfl

theorem cutAfter_append_of_lineFeed (before : Option Char) (ends : first.getLast? = some '\n')
    (apart : ¬ MarkerAcross first second) :
    Piece.cutAfter recognise before 0 (first ++ second) =
      Piece.cutAfter recognise before 0 first ++ Piece.cut recognise second := by
  rw [cutAfter_append before 0 (Nat.zero_le _) (fun _ => ends) apart, ends, Option.some_or,
    cutAfter_lineFeed]

/-- A text is cut into the pieces of its parts when the first of them ends with a line feed and no
marker goes across. -/
theorem cut_append (ends : first.getLast? = some '\n') (apart : ¬ MarkerAcross first second) :
    Piece.cut recognise (first ++ second) = Piece.cut recognise first ++ Piece.cut recognise second :=
  cutAfter_append_of_lineFeed none ends apart

end Covenant.NumberingMarker

namespace Covenant.Numbering

open NumberingMarker

theorem numberPieces_append (label : Text) (state : NumberingState)
    (first second : List (Piece NumberingMarker)) :
    numberPieces label state (first ++ second) =
      ((numberPieces label state first).1 ++
          (numberPieces label (numberPieces label state first).2 second).1,
        (numberPieces label (numberPieces label state first).2 second).2) := by
  induction first generalizing state with
  | nil => rfl
  | cons piece first ih =>
      cases piece with
      | plain c => simp only [List.cons_append, numberPieces, ih]
      | token marker source =>
          simp only [List.cons_append, numberPieces, ih (state.after marker), List.append_assoc]

/-- Numbering a text in two parts, with the counters carried over, is numbering it whole.  The first
part ends with a line feed, and no marker begins in it and ends in the second. -/
theorem number_append (label : Text) (state : NumberingState) {first second : Text}
    (ends : first.getLast? = some '\n') (apart : ¬ MarkerAcross first second) :
    number label state (first ++ second) =
      ((number label state first).1 ++ (number label (number label state first).2 second).1,
        (number label (number label state first).2 second).2) := by
  rw [number, cut_append ends apart, numberPieces_append]
  rfl

/-- Two parts that are cut between two lines with nothing but a reset marker. -/
theorem number_append_agreement :
    let first : Text := "[[ARTICLE]] één\n [[SUBARTICLE]]\n\t[[ reset_numbering\n]] \r\n"
    let second : Text := " [[NUMMERING_RESET]]\n[[ARTIKEL]] twee [[ artikelnummer\n]]"
    first.getLast? = some '\n' ∧ ¬ MarkerAcross first second ∧
      number "Artikel" { article := 4 } (first ++ second) =
        ((number "Artikel" { article := 4 } first).1 ++
            (number "Artikel" (number "Artikel" { article := 4 } first).2 second).1,
          (number "Artikel" (number "Artikel" { article := 4 } first).2 second).2) ∧
      (number "Artikel" { article := 4 } (first ++ second)).1 =
        ("Artikel 5 één\n 5.1\nArtikel 1 twee 1" : Text) := by
  intro first second
  have ends : first.getLast? = some '\n' := by decide +kernel
  have closes : ClosesOpenings first := by decide +kernel
  have apart := not_markerAcross_of_closesOpenings ends closes second
  exact ⟨ends, apart, number_append "Artikel" { article := 4 } ends apart, by decide +kernel⟩

end Covenant.Numbering
