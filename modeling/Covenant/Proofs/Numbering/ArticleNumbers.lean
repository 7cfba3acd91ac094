import Covenant.Proofs.Numbering.Division
import Mathlib.Data.List.DropRight

/-!
# Numbers as counts

The numbering pass carries counters from marker to marker.  What it writes at a place can be said
without them: an article has the number of article markers since the last reset, and a subarticle
the number of subarticle markers since the last article or reset; the counters a pass starts with
are added where nothing has set them back yet.
-/

namespace Covenant.Numbering

open NumberingMarker

/-- Markers that set the count of subarticles back. -/
def startsParts : NumberingMarker → Bool
  | .article => true
  | .reset => true
  | _ => false

/-- How many articles there are since the last reset; `start` is added if there was none. -/
def articleCount (start : Nat) (seen : List NumberingMarker) : Nat :=
  (seen.rtakeWhile (· ≠ .reset)).count .article + if .reset ∈ seen then 0 else start

/-- How many subarticles there are since the last article or reset; `start` is added if there was
neither. -/
def subarticleCount (start : Nat) (seen : List NumberingMarker) : Nat :=
  (seen.rtakeWhile fun marker => !startsParts marker).count .subarticle +
    if seen.any startsParts then 0 else start

/-- What is written for a marker that comes last among those seen. -/
def countedText (label : Text) (state : NumberingState) (seen : List NumberingMarker) :
    NumberingMarker → Text
  | .article =>
      if label = [] then Text.ofNat (articleCount state.article seen)
      else label ++ ' ' :: Text.ofNat (articleCount state.article seen)
  | .subarticle =>
      Text.ofNat (articleCount state.article seen) ++ '.' ::
        Text.ofNat (subarticleCount state.subarticle seen)
  | .articleNumber => Text.ofNat (articleCount state.article seen)
  | .reset => []

def markersOf (pieces : List (Piece NumberingMarker)) : List NumberingMarker :=
  pieces.filterMap fun
    | .plain _ => none
    | .token marker _ => some marker

/-- What a piece becomes that comes last among pieces. -/
def counted (label : Text) (state : NumberingState) (pieces : List (Piece NumberingMarker)) :
    Piece NumberingMarker → Text
  | .plain c => [c]
  | .token marker _ => countedText label state (markersOf pieces) marker

/-- The numbers of the articles among markers that follow those seen. -/
def articleNumbers (start : Nat) (seen between : List NumberingMarker) : List Nat :=
  (between.mapIdx fun place marker =>
    if marker = .article then [articleCount start (seen ++ between.take (place + 1))] else []).flatten

/-- The numbers of the subarticles among markers that follow those seen. -/
def subarticleNumbers (start : Nat) (seen between : List NumberingMarker) : List Nat :=
  (between.mapIdx fun place marker =>
    if marker = .subarticle then [subarticleCount start (seen ++ between.take (place + 1))]
    else []).flatten

section Counting

variable (start : Nat) (seen : List NumberingMarker)

theorem articleCount_concat (marker : NumberingMarker) :
    articleCount start (seen ++ [marker]) =
      match marker with
      | .article => articleCount start seen + 1
      | .reset => 0
      | _ => articleCount start seen := by
  cases marker <;> simp [articleCount]
  omega

theorem subarticleCount_concat (marker : NumberingMarker) :
    subarticleCount start (seen ++ [marker]) =
      match marker with
      | .subarticle => subarticleCount start seen + 1
      | .articleNumber => subarticleCount start seen
      | _ => 0 := by
  cases marker <;> simp [subarticleCount, startsParts]
  omega

end Counting

/-- The counters after markers are the counts of these markers. -/
theorem foldl_after_eq (state : NumberingState) (seen : List NumberingMarker) :
    seen.foldl NumberingState.after state =
      { article := articleCount state.article seen
        subarticle := subarticleCount state.subarticle seen
        resets := state.resets + seen.count .reset } := by
  induction seen using List.reverseRecOn with
  | nil => simp [articleCount, subarticleCount]
  | append_singleton seen marker ih =>
      rw [List.foldl_concat, ih, articleCount_concat, subarticleCount_concat, List.count_append]
      cases marker <;> simp [NumberingState.after, Nat.add_assoc]

theorem write_foldl_after (label : Text) (state : NumberingState) (seen : List NumberingMarker)
    (marker : NumberingMarker) :
    write label ((seen ++ [marker]).foldl NumberingState.after state) marker =
      countedText label state (seen ++ [marker]) marker := by
  rw [foldl_after_eq]
  cases marker <;> simp [write, countedText, Numbering.label]

/-- Numbering the pieces after others, with the counters these have left. -/
theorem numberPieces_eq_counted (label : Text) (state : NumberingState)
    (earlier pieces : List (Piece NumberingMarker)) :
    numberPieces label ((markersOf earlier).foldl NumberingState.after state) pieces =
      ((pieces.mapIdx fun place piece =>
          counted label state (earlier ++ pieces.take (place + 1)) piece).flatten,
        (markersOf (earlier ++ pieces)).foldl NumberingState.after state) := by
  induction pieces generalizing earlier with
  | nil => simp [numberPieces]
  | cons piece pieces ih =>
      have later := ih (earlier ++ [piece])
      simp only [List.append_assoc, List.singleton_append] at later
      cases piece with
      | plain c =>
          have sameMarkers : markersOf (earlier ++ [.plain c]) = markersOf earlier := by
            simp [markersOf]
          rw [sameMarkers] at later
          rw [numberPieces, later]
          simp [List.mapIdx_cons, counted]
      | token marker source =>
          have oneMore : markersOf (earlier ++ [.token marker source]) =
              markersOf earlier ++ [marker] := by
            simp [markersOf]
          have written := write_foldl_after label state (markersOf earlier) marker
          rw [oneMore] at later
          simp only [List.foldl_concat] at later written
          rw [numberPieces, later, written]
          simp [List.mapIdx_cons, counted, oneMore]

section Runs

/-! ### Consecutive numbers -/

theorem articleNumbers_eq_range {start : Nat} (seen between : List NumberingMarker)
    (noReset : .reset ∉ between) :
    articleNumbers start seen between =
      List.range' (articleCount start seen + 1) (between.count .article) := by
  induction between generalizing seen with
  | nil => rfl
  | cons marker between ih =>
      have later := ih (seen ++ [marker]) (fun member => noReset (by simp [member]))
      rw [articleCount_concat] at later
      simp only [articleNumbers, List.append_assoc, List.singleton_append] at later
      simp only [articleNumbers, List.mapIdx_cons, List.flatten_cons, List.take_succ_cons, later,
        List.take_zero, articleCount_concat]
      cases marker with
      | article => simp [List.range'_succ]
      | reset => simp at noReset
      | subarticle => simp
      | articleNumber => simp

theorem subarticleNumbers_eq_range {start : Nat} (seen between : List NumberingMarker)
    (noStart : ∀ marker ∈ between, startsParts marker = false) :
    subarticleNumbers start seen between =
      List.range' (subarticleCount start seen + 1) (between.count .subarticle) := by
  induction between generalizing seen with
  | nil => rfl
  | cons marker between ih =>
      have later := ih (seen ++ [marker]) (fun other member => noStart other (by simp [member]))
      have own := noStart marker (by simp)
      rw [subarticleCount_concat] at later
      simp only [subarticleNumbers, List.append_assoc, List.singleton_append] at later
      simp only [subarticleNumbers, List.mapIdx_cons, List.flatten_cons, List.take_succ_cons, later,
        List.take_zero, subarticleCount_concat]
      cases marker with
      | article => simp [startsParts] at own
      | reset => simp [startsParts] at own
      | subarticle => simp [List.range'_succ]
      | articleNumber => simp

end Runs

/-- Numbering writes counts.  A text falls into markers and other characters in one way; a reset
marker that is alone on its line is taken with the line.  What is written at every place, and the
counters in the end, are counts of the markers up to there; between resets the articles have the
numbers 1, 2, 3 and so on, and so have the subarticles of one article. -/
theorem number_eq_counted (label : Text) (state : NumberingState) (text : Text)
    (ascii : AsciiMarkers text) :
    ∃ pieces, (∀ other, Divided none text other ↔ other = pieces) ∧
      (∀ first line behind, text = first ++ (line ++ behind) → ResetLine behind line →
        StartsLine first.getLast? → ∃ earlier later,
          pieces = earlier ++ .token .reset line :: later ∧ earlier.flatMap Piece.source = first) ∧
      (number label state text).1 =
        (pieces.mapIdx fun place piece =>
          counted label state (pieces.take (place + 1)) piece).flatten ∧
      (number label state text).2 =
        { article := articleCount state.article (markersOf pieces)
          subarticle := subarticleCount state.subarticle (markersOf pieces)
          resets := state.resets + (markersOf pieces).count .reset } ∧
      (∀ seen between after, markersOf pieces = seen ++ .reset :: (between ++ after) →
        .reset ∉ between → articleNumbers state.article (seen ++ [.reset]) between =
          List.range' 1 (between.count .article)) ∧
      (∀ seen opening between after, markersOf pieces = seen ++ opening :: (between ++ after) →
        startsParts opening = true → (∀ marker ∈ between, startsParts marker = false) →
          subarticleNumbers state.subarticle (seen ++ [opening]) between =
            List.range' 1 (between.count .subarticle)) := by
  have numbered := numberPieces_eq_counted label state [] (Piece.cut recognise text)
  simp only [List.nil_append, markersOf, List.filterMap_nil, List.foldl_nil] at numbered
  refine ⟨Piece.cut recognise text, divided_iff_eq_cut ascii, ?_, ?_, ?_, ?_, ?_⟩
  · intro first line behind whole isLine starts
    have divided := (divided_iff_eq_cut ascii _).mpr rfl
    exact divided.exists_resetLine ascii whole isLine (by simpa using starts)
  · rw [number, numbered]
  · rw [number, numbered]
    exact foldl_after_eq state _
  · intro seen between after _ noReset
    rw [articleNumbers_eq_range _ _ noReset, articleCount_concat]
  · intro seen opening between after _ starts noStart
    rw [subarticleNumbers_eq_range _ _ noStart, subarticleCount_concat]
    cases opening with
    | article => rfl
    | reset => rfl
    | subarticle => simp [startsParts] at starts
    | articleNumber => simp [startsParts] at starts

/-- Two articles, a line that is taken away and a new beginning, in a text that goes on from
article 2. -/
def renumberedText : Text :=
  "[[ARTICLE]] één\n[[SubArticle]] a\n [[SUBARTIKEL ]] b\n\t[[ reset_numbering ]] \r\n" ++
    ("[[\nartikel]] twee, zie [[ARTIKELNUMMER]][[NUMMERING_RESET]]" : Text)

theorem number_renumberedText :
    AsciiMarkers renumberedText ∧
      (number "Artikel" { article := 2, subarticle := 7 } renumberedText).1 =
        ("Artikel 3 één\n3.1 a\n 3.2 b\nArtikel 1 twee, zie 1" : Text) ∧
      ∃ pieces, Divided none renumberedText pieces ∧
        (number "Artikel" { article := 2, subarticle := 7 } renumberedText).1 =
          (pieces.mapIdx fun place piece => counted "Artikel" { article := 2, subarticle := 7 }
            (pieces.take (place + 1)) piece).flatten := by
  have usual : renumberedText.all (fun c => !specialForms.contains c) = true := by decide +kernel
  have ascii : AsciiMarkers renumberedText := asciiMarkers_of_usual (by simpa using usual)
  obtain ⟨pieces, divides, -, written, -⟩ :=
    number_eq_counted "Artikel" { article := 2, subarticle := 7 } renumberedText ascii
  exact ⟨ascii, by decide +kernel, pieces, (divides pieces).mpr rfl, written⟩

end Covenant.Numbering

/-!
## The numbers of the first articles

Numbering writes a text in the place of every marker.  The texts in the places of the article markers
have the numbers 1, 2, 3 and so on as far as no reset stands between two of them.
-/

namespace Covenant.Numbering

open NumberingMarker

/-! ### What is written for each marker -/

theorem label_of_ne_nil {label : Text} (labelled : label ≠ []) (number : Nat) :
    Numbering.label label number = label ++ ' ' :: Text.ofNat number := by
  rw [Numbering.label, if_neg (by simpa using labelled)]

/-- The pieces of a text, each with what numbering writes in its place. -/
def writtenPieces (label : Text) :
    NumberingState → List (Piece NumberingMarker) → List (Piece NumberingMarker × Text)
  | _, [] => []
  | state, .plain c :: pieces => (.plain c, [c]) :: writtenPieces label state pieces
  | state, .token marker source :: pieces =>
      (.token marker source, write label (state.after marker) marker) ::
        writtenPieces label (state.after marker) pieces

section Written

variable {label : Text} {state : NumberingState} {pieces : List (Piece NumberingMarker)}

theorem map_fst_writtenPieces : (writtenPieces label state pieces).map (·.1) = pieces := by
  induction pieces generalizing state with
  | nil => rfl
  | cons piece pieces ih =>
      cases piece with
      | plain c => rw [writtenPieces, List.map_cons, ih]
      | token marker source => rw [writtenPieces, List.map_cons, ih]

/-- Put together, what is written for the pieces is the numbered text. -/
theorem flatMap_snd_writtenPieces :
    (writtenPieces label state pieces).flatMap (·.2) = (numberPieces label state pieces).1 := by
  induction pieces generalizing state with
  | nil => rfl
  | cons piece pieces ih =>
      cases piece with
      | plain c => rw [writtenPieces, List.flatMap_cons, ih, numberPieces, List.singleton_append]
      | token marker source => rw [writtenPieces, List.flatMap_cons, ih, numberPieces]

end Written

def articleText? : Piece NumberingMarker × Text → Option Text
  | (.token .article _, text) => some text
  | _ => none

/-- What numbering a text writes in the places of its article markers. -/
def articleTexts (label text : Text) : List Text :=
  (writtenPieces label .start (Piece.cut recognise text)).filterMap articleText?

/-- The numbers of the articles among markers, when so many articles have been counted. -/
def numbersFrom : Nat → List NumberingMarker → List Nat
  | _, [] => []
  | count, .article :: markers => (count + 1) :: numbersFrom (count + 1) markers
  | _, .reset :: markers => numbersFrom 0 markers
  | count, _ :: markers => numbersFrom count markers

theorem filterMap_writtenPieces (label : Text) (state : NumberingState)
    (pieces : List (Piece NumberingMarker)) :
    (writtenPieces label state pieces).filterMap articleText? =
      (numbersFrom state.article (markersOf pieces)).map (Numbering.label label) := by
  induction pieces generalizing state with
  | nil => rfl
  | cons piece pieces ih =>
      cases piece with
      | plain c => exact ih state
      | token marker source =>
          have later := ih (state.after marker)
          cases marker with
          | article => exact congrArg (Numbering.label label (state.article + 1) :: ·) later
          | subarticle => exact later
          | articleNumber => exact later
          | reset => exact later

theorem length_numbersFrom (count : Nat) (markers : List NumberingMarker) :
    (numbersFrom count markers).length = markers.count .article := by
  induction markers generalizing count with
  | nil => rfl
  | cons marker markers ih =>
      cases marker with
      | article => rw [numbersFrom, List.length_cons, ih, List.count_cons_self]
      | subarticle => rw [numbersFrom, ih, List.count_cons_of_ne (by decide)]; all_goals nofun
      | articleNumber => rw [numbersFrom, ih, List.count_cons_of_ne (by decide)]; all_goals nofun
      | reset => rw [numbersFrom, ih, List.count_cons_of_ne (by decide)]

/-! ### Resets among the first articles -/

/-- No reset stands in front of one of the first articles. -/
def FreeInFront (number : Nat) (markers : List NumberingMarker) : Prop :=
  ∀ between after, markers = between ++ .article :: after → between.count .article < number →
    .reset ∉ between

/-- No reset stands between two of the first articles. -/
def FreeBetween (number : Nat) (markers : List NumberingMarker) : Prop :=
  ∀ earlier between after, markers = earlier ++ .article :: (between ++ .article :: after) →
    earlier.count .article + between.count .article + 1 < number → .reset ∉ between

section Resets

variable {number count : Nat} {marker : NumberingMarker} {markers : List NumberingMarker}

theorem freeInFront_cons_article :
    FreeInFront (number + 1) (.article :: markers) ↔ FreeInFront number markers := by
  constructor
  · rintro free between after rfl within
    have whole := free (.article :: between) after rfl (by simpa using within)
    exact fun member => whole (List.mem_cons_of_mem _ member)
  · rintro free between after whole within
    cases between with
    | nil => exact List.not_mem_nil
    | cons first between =>
        obtain ⟨rfl, rest⟩ := List.cons.inj whole
        have later := free between after rest (by simpa using within)
        simpa using later

theorem freeInFront_cons_of_ne (notArticle : marker ≠ .article) (notReset : marker ≠ .reset) :
    FreeInFront number (marker :: markers) ↔ FreeInFront number markers := by
  constructor
  · rintro free between after rfl within
    have whole := free (marker :: between) after rfl
      (by rwa [List.count_cons_of_ne notArticle])
    exact fun member => whole (List.mem_cons_of_mem _ member)
  · rintro free between after whole within
    cases between with
    | nil => exact List.not_mem_nil
    | cons first between =>
        obtain ⟨rfl, rest⟩ := List.cons.inj whole
        have later := free between after rest
          (by rwa [List.count_cons_of_ne notArticle] at within)
        simpa [notReset.symm] using later

theorem freeBetween_cons_article :
    FreeBetween (number + 1) (.article :: markers) ↔ FreeInFront number markers := by
  constructor
  · rintro free between after rfl within
    exact free [] between after rfl (by simpa using within)
  · rintro free earlier between after whole within
    cases earlier with
    | nil =>
        exact free between after (List.cons.inj whole).2 (by simpa using within)
    | cons first earlier =>
        obtain ⟨rfl, rest⟩ := List.cons.inj whole
        have wide := free (earlier ++ .article :: between) after (by simpa using rest) (by
          simp only [List.count_append, List.count_cons_self] at within ⊢
          omega)
        exact fun member => wide (by simp [member])

theorem freeBetween_cons_of_ne (notArticle : marker ≠ .article) :
    FreeBetween number (marker :: markers) ↔ FreeBetween number markers := by
  constructor
  · rintro free earlier between after rfl within
    exact free (marker :: earlier) between after rfl
      (by rwa [List.count_cons_of_ne notArticle])
  · rintro free earlier between after whole within
    cases earlier with
    | nil => exact absurd (List.cons.inj whole).1 notArticle
    | cons first earlier =>
        obtain ⟨rfl, rest⟩ := List.cons.inj whole
        exact free earlier between after rest (by rwa [List.count_cons_of_ne notArticle] at within)

/-- Where an article comes, the first of all has the number one. -/
theorem head?_numbersFrom_zero (isGiven : .article ∈ markers) :
    (numbersFrom 0 markers).head? = some 1 := by
  induction markers with
  | nil => cases isGiven
  | cons marker markers ih =>
      cases marker with
      | article => rfl
      | subarticle => exact ih (by simpa using isGiven)
      | articleNumber => exact ih (by simpa using isGiven)
      | reset => exact ih (by simpa using isGiven)

theorem exists_first_article (isGiven : .article ∈ markers) :
    ∃ between after, markers = between ++ .article :: after ∧ between.count .article = 0 := by
  obtain ⟨between, after, rfl, isNew⟩ := List.eq_append_cons_of_mem isGiven
  exact ⟨between, after, rfl, List.count_eq_zero.mpr isNew⟩

/-- After some articles the first ones are counted on if no reset stands in front of one of them. -/
theorem take_numbersFrom_succ_iff (enough : number ≤ markers.count .article) :
    (numbersFrom (count + 1) markers).take number = List.range' (count + 2) number ↔
      FreeInFront number markers := by
  induction markers generalizing number count with
  | nil =>
      obtain rfl : number = 0 := by simpa using enough
      simp [FreeInFront]
  | cons marker markers ih =>
      cases number with
      | zero => simp [FreeInFront]
      | succ number =>
          cases marker with
          | article =>
              rw [List.count_cons_self] at enough
              rw [freeInFront_cons_article, numbersFrom, List.take_succ_cons, List.range'_succ,
                List.cons.injEq, ih (Nat.le_of_succ_le_succ enough)]
              simp
          | subarticle =>
              rw [List.count_cons_of_ne (by decide)] at enough
              rw [freeInFront_cons_of_ne (by decide) (by decide)]
              exact ih enough
          | articleNumber =>
              rw [List.count_cons_of_ne (by decide)] at enough
              rw [freeInFront_cons_of_ne (by decide) (by decide)]
              exact ih enough
          | reset =>
              rw [List.count_cons_of_ne (by decide)] at enough
              have isGiven : NumberingMarker.article ∈ markers :=
                List.count_pos_iff.mp (Nat.lt_of_lt_of_le (Nat.succ_pos number) enough)
              constructor
              · intro same
                have heads := congrArg List.head? same
                rw [List.head?_take] at heads
                rw [numbersFrom, if_neg (by omega), head?_numbersFrom_zero isGiven, List.range'_succ] at heads
                simp at heads
              · intro free
                obtain ⟨between, after, rfl, none⟩ := exists_first_article isGiven
                refine absurd List.mem_cons_self (free (.reset :: between) after rfl ?_)
                rw [List.count_cons_of_ne (by decide), none]
                exact Nat.succ_pos number

/-- The first articles have the numbers 1, 2, 3 and so on if no reset stands between two of them. -/
theorem take_numbersFrom_zero_iff (enough : number ≤ markers.count .article) :
    (numbersFrom 0 markers).take number = List.range' 1 number ↔ FreeBetween number markers := by
  induction markers generalizing number with
  | nil =>
      obtain rfl : number = 0 := by simpa using enough
      simp [FreeBetween]
  | cons marker markers ih =>
      by_cases isArticle : marker = .article
      · subst isArticle
        cases number with
        | zero => simp [FreeBetween]
        | succ number =>
            rw [List.count_cons_self] at enough
            rw [freeBetween_cons_article, numbersFrom, List.take_succ_cons, List.range'_succ,
              List.cons.injEq, take_numbersFrom_succ_iff (Nat.le_of_succ_le_succ enough)]
            simp
      · have skipped : numbersFrom 0 (marker :: markers) = numbersFrom 0 markers := by
          cases marker with
          | article => exact absurd rfl isArticle
          | subarticle => rfl
          | articleNumber => rfl
          | reset => rfl
        rw [List.count_cons_of_ne isArticle] at enough
        rw [skipped, freeBetween_cons_of_ne isArticle]
        exact ih enough

end Resets

end Covenant.Numbering
