import Covenant.Proofs.Word.Body

/-!
# Where a text is cut

A text is cut at the markers of tables in order.  The cut loses no other line, and it passes over just
those markers that are out of order or of no table.  It fails only on a marker whose number is too long
to be read, though such a marker, being of no table, could be passed over as well.
-/

namespace Covenant.Word

/-! ### Numbers of markers -/

/-- The number in a marker, however long it is. -/
def markerNumber? (line : Text) : Option Nat :=
  (markerDigits? line).map fun digits => Text.digitsToNat (Text.normalizeDigits digits)

/-- A line that is no marker. -/
def isContent (line : Text) : Bool := (markerNumber? line).isNone

theorem markerIndex?_eq_ok_iff {line : Text} {found : Option Nat} :
    markerIndex? line = .ok found ↔
      (∀ digits ∈ markerDigits? line, digits.length ≤ maxIntegerDigits) ∧ markerNumber? line = found := by
  rw [markerIndex?, markerNumber?]
  cases isMarker : markerDigits? line with
  | none => simp
  | some digits =>
      obtain ⟨row, nonempty⟩ := digits_of_markerDigits? isMarker
      have read := readInteger_digits row nonempty
      simp only [Option.mem_def, Option.some.injEq, forall_eq', Option.map_some]
      by_cases short : digits.length ≤ maxIntegerDigits
      · rw [if_neg (Nat.not_lt.mpr short)] at read
        simp [Value.integerOfText, read, Except.map, short]
      · rw [if_pos (Nat.lt_of_not_le short)] at read
        simp [Value.integerOfText, read, Except.map, short]

/-- The cut fails only on numbers that are too long. -/
theorem short_of_cutLines {count : Nat} {lines : List Text} {lastKept : Option Nat} {pieces : BodyPieces}
    (cut : cutLines count lastKept lines = .ok pieces) :
    ∀ line ∈ lines, ∀ digits ∈ markerDigits? line, digits.length ≤ maxIntegerDigits := by
  induction lines generalizing lastKept pieces with
  | nil => exact nofun
  | cons line lines ih =>
      rw [List.forall_mem_cons]
      rcases cutLines_cons cut with
        ⟨later, read, cutLater, -⟩ | ⟨index, later, read, -, -, cutLater, -⟩ | ⟨index, read, -, cutLater⟩
      all_goals exact ⟨(markerIndex?_eq_ok_iff.mp read).1, ih cutLater⟩

/-! ### Divisions -/

/-- Lines divided at marks: the stretch in front of the first, and every mark with the stretch behind. -/
structure Division where
  first : List Text
  rest : List (Text × List Text)

namespace Division

def lines (division : Division) : List Text :=
  division.first ++ division.rest.flatMap fun (mark, stretch) => mark :: stretch

def marks (division : Division) : List Text := division.rest.map (·.1)

def stretches (division : Division) : List (List Text) := division.first :: division.rest.map (·.2)

/-- What is left when the marks are taken out is in the stretches. -/
theorem filter_lines {division : Division} {keeps : Text → Bool}
    (dropped : ∀ mark ∈ division.marks, keeps mark = false) :
    division.lines.filter keeps = (division.stretches.map (List.filter keeps)).flatten := by
  obtain ⟨first, rest⟩ := division
  rw [lines, stretches, List.filter_append, List.map_cons, List.flatten_cons]
  congr 1
  induction rest with
  | nil => rfl
  | cons entry rest ih =>
      obtain ⟨own, later⟩ := List.forall_mem_cons.mp dropped
      rw [List.flatMap_cons, List.filter_append, List.filter_cons_of_neg (by simp [own]), ih later]
      rfl

end Division

/-- All pieces of a cut. -/
def BodyPieces.all (pieces : BodyPieces) : List (List Text) := pieces.first :: pieces.rest.map (·.2)

/-- A marker is passed over: its table is not there, or does not come behind every table kept before. -/
def IsPassedOver (count : Nat) (before : List Nat) (line : Text) : Prop :=
  ∀ number ∈ markerNumber? line, count ≤ number ∨ ∃ earlier ∈ before, number ≤ earlier

/-- Lines are divided at the markers of the tables that are kept, and the pieces are what the stretches
hold besides markers that are passed over. -/
structure Division.Yields (division : Division) (count : Nat) (before : List Nat) (pieces : BodyPieces) :
    Prop where
  atKept : division.marks.map markerNumber? = pieces.kept.map some
  holdPieces : division.stretches.map (List.filter isContent) = pieces.all
  passedOver : ∀ (place : Nat) (stretch : List Text), division.stretches[place]? = some stretch →
    ∀ line ∈ stretch, IsPassedOver count (before ++ pieces.kept.take place) line

namespace Division.Yields

variable {division : Division} {count index : Nat} {before : List Nat} {pieces : BodyPieces} {line : Text}

theorem marks_areMarkers (yields : division.Yields count before pieces) :
    ∀ mark ∈ division.marks, isContent mark = false := by
  intro mark isMark
  have kept := yields.atKept ▸ List.mem_map_of_mem isMark
  obtain ⟨index, -, isIndex⟩ := List.mem_map.mp kept
  simp [isContent, ← isIndex]

/-- A line in front that is no marker belongs to the first piece. -/
theorem consContent (yields : division.Yields count before pieces) (noMarker : markerNumber? line = none) :
    Yields { division with first := line :: division.first } count before
      { pieces with first := line :: pieces.first } where
  atKept := yields.atKept
  holdPieces := by
    obtain ⟨first, rest⟩ := List.cons.inj yields.holdPieces
    have content : isContent line = true := by simp [isContent, noMarker]
    simp only [stretches, BodyPieces.all, List.map_cons, List.filter_cons_of_pos content, first, rest]
  passedOver place stretch isStretch other member := by
    cases place with
    | zero =>
        obtain rfl := Option.some.inj isStretch
        rcases List.mem_cons.mp member with rfl | member
        · exact fun number isNumber => by simp [noMarker] at isNumber
        · exact yields.passedOver 0 division.first rfl other member
    | succ place => exact yields.passedOver (place + 1) stretch isStretch other member

/-- A marker in front may be passed over. -/
theorem consPassedOver (yields : division.Yields count before pieces) (isMarker : markerNumber? line = some index)
    (isPassedOver : count ≤ index ∨ ∃ earlier ∈ before, index ≤ earlier) :
    Yields { division with first := line :: division.first } count before pieces where
  atKept := yields.atKept
  holdPieces := by
    have marker : ¬ isContent line = true := by simp [isContent, isMarker]
    rw [← yields.holdPieces]
    simp only [stretches, List.map_cons, List.filter_cons_of_neg marker]
  passedOver place stretch isStretch other member := by
    cases place with
    | zero =>
        obtain rfl := Option.some.inj isStretch
        rcases List.mem_cons.mp member with rfl | member
        · intro number isNumber
          obtain rfl := Option.some.inj (isMarker.symm.trans isNumber)
          simpa using isPassedOver
        · exact yields.passedOver 0 division.first rfl other member
    | succ place => exact yields.passedOver (place + 1) stretch isStretch other member

/-- A marker in front may be a mark, which all later ones have to exceed. -/
theorem consMark (yields : division.Yields count [index] pieces) (isMarker : markerNumber? line = some index) :
    Yields ⟨[], (line, division.first) :: division.rest⟩ count before ⟨[], (index, pieces.first) :: pieces.rest⟩ where
  atKept := congrArg₂ List.cons isMarker yields.atKept
  holdPieces := congrArg (List.cons []) yields.holdPieces
  passedOver place stretch isStretch other member := by
    cases place with
    | zero =>
        obtain rfl := Option.some.inj isStretch
        cases member
    | succ place =>
        intro number isNumber
        refine (yields.passedOver place stretch isStretch other member number isNumber).imp_right ?_
        rintro ⟨earlier, isEarlier, atMost⟩
        exact ⟨earlier, List.mem_append_right before isEarlier, atMost⟩

end Division.Yields

/-- What the cut makes of lines is a division of them. -/
theorem exists_division_of_cutLines {count : Nat} {lines : List Text} {lastKept : Option Nat}
    {pieces : BodyPieces} (cut : cutLines count lastKept lines = .ok pieces) :
    ∃ division : Division, division.lines = lines ∧ division.Yields count lastKept.toList pieces := by
  induction lines generalizing lastKept pieces with
  | nil =>
      obtain rfl : ⟨[], []⟩ = pieces := by simpa [cutLines] using cut
      refine ⟨⟨[], []⟩, rfl, rfl, rfl, fun place stretch isStretch line member => ?_⟩
      cases place with
      | zero =>
          obtain rfl := Option.some.inj isStretch
          cases member
      | succ place => cases isStretch
  | cons line lines ih =>
      rcases cutLines_cons cut with
        ⟨later, read, cutLater, rfl⟩ | ⟨index, later, read, inRange, exceeds, cutLater, rfl⟩ |
        ⟨index, read, outOfPlace, cutLater⟩
      · obtain ⟨division, rfl, yields⟩ := ih cutLater
        exact ⟨_, rfl, yields.consContent (markerIndex?_eq_ok_iff.mp read).2⟩
      · obtain ⟨division, rfl, yields⟩ := ih cutLater
        exact ⟨_, rfl, yields.consMark (markerIndex?_eq_ok_iff.mp read).2⟩
      · obtain ⟨division, rfl, yields⟩ := ih cutLater
        refine ⟨_, rfl, yields.consPassedOver (markerIndex?_eq_ok_iff.mp read).2 ?_⟩
        by_cases inRange : index < count
        · obtain ⟨earlier, isLast, atMost⟩ : ∃ earlier ∈ lastKept, index ≤ earlier := by
            by_contra none
            exact outOfPlace ⟨inRange, fun earlier isLast =>
              Nat.lt_of_not_le fun atMost => none ⟨earlier, isLast, atMost⟩⟩
          exact .inr ⟨earlier, Option.mem_toList.mpr isLast, atMost⟩
        · exact .inl (Nat.le_of_not_lt inRange)

/-- The markers at which lines are divided are none to pass over. -/
theorem Division.Yields.not_isPassedOver {division : Division} {count : Nat} {before : List Nat}
    {pieces : BodyPieces} (yields : division.Yields count before pieces)
    (increasing : pieces.kept.Pairwise (· < ·)) (inRange : ∀ index ∈ pieces.kept, index < count)
    {place : Nat} {mark : Text} (isMark : division.marks[place]? = some mark) :
    ¬ IsPassedOver count (pieces.kept.take place) mark := by
  have kept := congrArg (·[place]?) yields.atKept
  simp only [List.getElem?_map, isMark, Option.map_some] at kept
  obtain ⟨index, isKept, isNumber⟩ := Option.map_eq_some_iff.mp kept.symm
  obtain ⟨later, isRest⟩ : ∃ later, pieces.kept.drop place = index :: later :=
    List.head?_eq_some_iff.mp (by rw [List.head?_drop, isKept])
  rw [← List.take_append_drop place pieces.kept, isRest, List.pairwise_append] at increasing
  intro isPassedOver
  rcases isPassedOver index isNumber.symm with outOfRange | ⟨earlier, isEarlier, atMost⟩
  · exact absurd (inRange index (List.mem_of_getElem? isKept)) (Nat.not_lt.mpr outOfRange)
  · exact absurd (increasing.2.2 earlier isEarlier index List.mem_cons_self) (Nat.not_lt.mpr atMost)

/-- A cut of lines at the tables of which there are `count`: the tables kept are in order, there is one
piece more than tables, the pieces hold all lines but markers, and the lines are divided at the markers
of the tables kept, where just the other markers are to be passed over. -/
structure IsCut (count : Nat) (lines : List Text) (pieces : BodyPieces) : Prop where
  increasing : pieces.kept.Pairwise (· < ·)
  inRange : ∀ index ∈ pieces.kept, index < count
  oneMore : pieces.all.length = pieces.kept.length + 1
  lossless : pieces.all.flatten = lines.filter isContent
  divided : ∃ division : Division, division.lines = lines ∧ division.Yields count [] pieces ∧
    ∀ (place : Nat) (mark : Text), division.marks[place]? = some mark →
      ¬ IsPassedOver count (pieces.kept.take place) mark

/-- **No line is lost, and tables keep their order.**  The cut is one of its lines just when no marker
has a number that is too long to be read. -/
theorem cutBody_isCut_iff (count : Nat) (text : Text) :
    (∃ pieces, cutBody count text = .ok pieces ∧ IsCut count (Text.lines text) pieces) ↔
      ∀ line ∈ Text.lines text, ∀ digits ∈ markerDigits? line, digits.length ≤ maxIntegerDigits := by
  refine ⟨fun ⟨_, cut, _⟩ => short_of_cutLines cut, fun short => ?_⟩
  obtain ⟨pieces, cut⟩ := cutLines_returns short count none
  obtain ⟨increasing, bounds⟩ := kept_of_cutLines cut
  obtain ⟨division, isLines, yields⟩ := exists_division_of_cutLines cut
  have inRange : ∀ index ∈ pieces.kept, index < count := fun index member => (bounds index member).1
  refine ⟨pieces, cut, increasing, inRange, ?_, ?_,
    division, isLines, yields, fun place mark isMark => yields.not_isPassedOver increasing inRange isMark⟩
  · simp [BodyPieces.all, BodyPieces.kept]
  · rw [← isLines, Division.filter_lines yields.marks_areMarkers, yields.holdPieces]

/-- A body with one table, whose marker is repeated, and with the marker of a table that is not there. -/
def repeatedMarkers : Text := Text.unlines ["a", marker 0, "b", marker 0, marker 7, "c"]

theorem cutBody_isCut_repeatedMarkers :
    (∀ line ∈ Text.lines repeatedMarkers, ∀ digits ∈ markerDigits? line,
      digits.length ≤ maxIntegerDigits) ∧
    IsCut 1 (Text.lines repeatedMarkers) ⟨["a"], [(0, ["b", "c"])]⟩ := by
  have short : ∀ line ∈ Text.lines repeatedMarkers, ∀ digits ∈ markerDigits? line,
      digits.length ≤ maxIntegerDigits := by decide +kernel
  obtain ⟨pieces, cut, isCut⟩ := (cutBody_isCut_iff 1 repeatedMarkers).mpr short
  have result : cutBody 1 repeatedMarkers = .ok ⟨["a"], [(0, ["b", "c"])]⟩ := rfl
  obtain rfl := Except.ok.inj (cut.symm.trans result)
  exact ⟨short, isCut⟩

/-! ### A number that is too long -/

/-- The marker with a row of digits. -/
def markerOf (digits : Text) : Text := markerEdge :: markerName ++ digits ++ [markerEdge]

theorem markerDigits?_markerOf {digits : Text} (row : ∀ c ∈ digits, isDigit c = true)
    (nonempty : digits ≠ []) : markerDigits? (markerOf digits) = some digits := by
  have edge : isBlank markerEdge = false := by decide
  have trimmed : Text.trim (markerOf digits) = markerOf digits := by
    rw [Text.trim, markerOf, List.cons_append, List.cons_append, Text.trimStart_of_not_blank edge,
      ← List.cons_append, Text.trimEnd_concat, if_neg (by simp [edge])]
  have whole : markerOf digits = markerEdge :: (markerName ++ (digits ++ [markerEdge])) := by
    simp [markerOf]
  have same : (digits ++ [markerEdge]).takeWhile isDigit = digits := by
    rw [List.takeWhile_append_of_pos row, List.takeWhile_cons_of_neg (by decide), List.append_nil]
  rw [markerDigits?, trimmed, whole]
  simp [same, nonempty]

/-- More nines than an integer is read from. -/
def manyNines : Text := List.replicate (maxIntegerDigits + 1) '9'

/-- The marker of a table that is not there is not passed over when its number is too long. -/
theorem cutBody_fails_for_manyNines :
    ¬ ∀ (count : Nat) (text : Text),
      ∃ pieces, cutBody count text = .ok pieces ∧ IsCut count (Text.lines text) pieces := by
  intro holds
  have row : ∀ c ∈ manyNines, isDigit c = true := fun c member => by
    rw [List.eq_of_mem_replicate member]
    rfl
  have oneLine : Text.lines (markerOf manyNines) = [markerOf manyNines] := by
    refine Text.lines_of_noBreak fun member => ?_
    have inName : '\n' ∉ markerName := by decide
    simp [markerOf, manyNines, inName, markerEdge] at member
  obtain ⟨pieces, cut, -⟩ := holds 1 (markerOf manyNines)
  have short := short_of_cutLines cut
  rw [oneLine, List.forall_mem_singleton, markerDigits?_markerOf row (by simp [manyNines])] at short
  have atMost := short manyNines rfl
  rw [manyNines, List.length_replicate] at atMost
  exact Nat.not_succ_le_self maxIntegerDigits atMost

end Covenant.Word
