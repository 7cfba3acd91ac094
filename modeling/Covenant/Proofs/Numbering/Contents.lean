import Covenant.Articles
import Covenant.Proofs.Numbering.ArticleNumbers
import Covenant.Proofs.Numbering.Tokens
import Covenant.Proofs.Text.Digits

/-!
# The table of contents and the numbering

The table of contents counts the titles with a number; the numbering pass counts the article markers
in the text that the clauses make up.  Every such title puts a marker into the text, so the pass has a
number for every line of the table.  The two write the same if there is a label, and if the pass is
not set back between the articles that the table counts.  Without a label the table leaves a space in
front of the number, and the pass does not.
-/

/-! ### Markers of headings -/

namespace Covenant.NumberingMarker

open Tokenised (exists_of_append_eq)

variable {before : Option Char} {marker : NumberingMarker} {length : Nat}

/-- The marker of a heading with a number. -/
def articleMark : Text := "[[ARTICLE]]"

/-- Two opening brackets in a row stand at the beginning of a bracketed text or behind it. -/
theorem length_le_of_bracketed {body tail rest front behind : Text} (free : BracketFree body)
    (noOpening : ∀ c ∈ tail, c ≠ '[') (filled : front ≠ [])
    (whole : '[' :: '[' :: (body ++ ']' :: ']' :: (tail ++ rest)) = front ++ '[' :: '[' :: behind) :
    body.length + tail.length + 4 ≤ front.length := by
  have bodyOpening : ∀ c ∈ body, c ≠ '[' := by
    rintro c member rfl
    exact absurd (free '[' member) (by decide)
  have inside : ∀ c ∈ body ++ ']' :: ']' :: tail, c ≠ '[' := by
    intro c member
    simp only [List.mem_append, List.mem_cons] at member
    rcases member with inBody | rfl | rfl | inTail
    · exact bodyOpening c inBody
    · decide
    · decide
    · exact noOpening c inTail
  cases front with
  | nil => exact absurd rfl filled
  | cons first front =>
      obtain ⟨-, whole⟩ := List.cons.inj whole
      cases front with
      | nil =>
          have split : (body ++ ']' :: ']' :: tail) ++ rest = [] ++ '[' :: behind := by
            simpa using whole
          obtain ⟨between, empty, -⟩ := exists_of_append_eq inside split
          simp at empty
      | cons second front =>
          obtain ⟨-, whole⟩ := List.cons.inj whole
          have split : (body ++ ']' :: ']' :: tail) ++ rest = front ++ '[' :: ('[' :: behind) := by
            simpa using whole
          obtain ⟨between, rfl, -⟩ := exists_of_append_eq inside split
          simp only [List.length_cons, List.length_append]
          omega

theorem resetLine?_of_article {spaces : Text} (allSpace : ∀ c ∈ spaces, isSpaceOrTab c = true)
    (rest : Text) : resetLine? (spaces ++ '[' :: '[' :: 'A' :: rest) = none := by
  have start : (spaces ++ '[' :: '[' :: 'A' :: rest).dropWhile isSpaceOrTab = '[' :: '[' :: 'A' :: rest :=
    dropWhile_isSpaceOrTab allSpace (by
      rintro c isHead
      obtain rfl := Option.some.inj isHead
      decide)
  rw [resetLine?, start]
  rfl

theorem bracketed?_of_isSpaceOrTab {c : Char} (space : isSpaceOrTab c = true) (rest : Text) :
    bracketed? (c :: rest) = none := by
  by_contra isMarker
  obtain ⟨⟨marker, behind⟩, isMarker⟩ := Option.ne_none_iff_exists'.mp isMarker
  rw [bracketed?_eq_findSome?] at isMarker
  obtain ⟨source, accepted, whole⟩ := exists_accepted_of_spelled? (fun _ member => member) isMarker
  obtain ⟨body, -, rfl⟩ := accepted.isBracketed
  exact ne_opening_of_isSpaceOrTab space (List.cons.inj whole).1

/-- A marker that begins in front of the mark of an article ends in front of it. -/
theorem length_le_of_recognise {front rest : Text} (filled : front ≠ [])
    (recognised : recognise before (front ++ '[' :: '[' :: 'A' :: rest) = some (marker, length)) :
    length ≤ front.length := by
  obtain ⟨source, behind, taken, whole, rfl⟩ := taken_of_recognise recognised
  cases taken with
  | marker accepted =>
      obtain ⟨body, free, rfl⟩ := accepted.isBracketed
      have room := @length_le_of_bracketed body [] behind front ('A' :: rest) free nofun filled
        (by simpa using whole.symm)
      simp only [List.length_append, List.length_cons, List.length_nil] at room ⊢
      omega
  | @line first source last lineEnd firstSpace accepted lastSpace ends =>
      obtain ⟨body, free, rfl⟩ := accepted.isBracketed
      have noOpening : ∀ c ∈ last ++ lineEnd, c ≠ '[' := by
        intro c member
        rcases List.mem_append.mp member with inLast | inEnd
        · exact ne_opening_of_isSpaceOrTab (lastSpace c inLast)
        · rintro rfl
          rcases ends with rfl | rfl | ⟨rfl, -⟩ <;> simp at inEnd
      have split : first ++ ('[' :: '[' :: (body ++ ']' :: ']' :: ((last ++ lineEnd) ++ behind))) =
          front ++ '[' :: ('[' :: 'A' :: rest) := by
        simpa using whole.symm
      obtain ⟨between, rfl, isRest⟩ := exists_of_append_eq
        (fun c member => ne_opening_of_isSpaceOrTab (firstSpace c member)) split
      cases between with
      | nil =>
          -- The line would hold the mark itself, which is no reset.
          rw [List.append_nil] at recognised filled
          obtain ⟨c, first, rfl⟩ := List.exists_cons_of_ne_nil filled
          rw [recognise, resetLine?_of_article firstSpace, ite_self, List.cons_append,
            bracketed?_of_isSpaceOrTab (firstSpace c List.mem_cons_self)] at recognised
          cases recognised
      | cons c between =>
          have room := length_le_of_bracketed free noOpening (by simp) isRest
          simp only [List.length_append, List.length_cons, List.length_nil] at room ⊢
          omega

theorem recognise_articleMark (rest : Text) :
    recognise before (articleMark ++ rest) = some (.article, articleMark.length) := by
  have noLine : resetLine? (articleMark ++ rest) = none :=
    resetLine?_of_article (List.forall_mem_nil _) ("RTICLE]]".toList ++ rest)
  have isMarker : bracketed? (articleMark ++ rest) = some (.article, rest) := by
    rfl
  rw [recognise, noLine, ite_self, isMarker]
  simp

/-- The mark of an article is found whatever stands in front of it. -/
theorem exists_articleMark (front rest : Text) (skip : Nat) (within : skip ≤ front.length) :
    ∃ pieces place, Piece.cutAfter recognise before skip (front ++ (articleMark ++ rest)) =
      pieces ++ .token .article articleMark :: Piece.cutAfter recognise place 0 rest := by
  induction front generalizing before skip with
  | nil =>
      obtain rfl : skip = 0 := Nat.le_zero.mp within
      exact ⟨[], _, cutAfter_of_recognised (by decide) (recognise_articleMark rest)⟩
  | cons c front ih =>
      cases skip with
      | succ skip => exact ih skip (Nat.le_of_succ_le_succ within)
      | zero =>
          rw [List.cons_append, Piece.cutAfter]
          split
          · rename_i found length recognised
            have room := length_le_of_recognise (List.cons_ne_nil c front) recognised
            obtain ⟨pieces, place, isCut⟩ := ih length (Nat.le_of_succ_le_succ room)
            rw [isCut]
            exact ⟨_ :: pieces, place, rfl⟩
          · obtain ⟨pieces, place, isCut⟩ := ih 0 (Nat.zero_le _)
            rw [isCut]
            exact ⟨_ :: pieces, place, rfl⟩

end Covenant.NumberingMarker

namespace Covenant.Articles

open Covenant.Numbering NumberingMarker

/-! ### Lines of the table -/

theorem numberedTitles_cons (clause : RenderedClause) (clauses : List RenderedClause) :
    numberedTitles (clause :: clauses) =
      (if clause.clause.numbering = .newNumber then [clause.title] else []) ++ numberedTitles clauses := by
  rw [numberedTitles, List.filter_cons]
  cases clause.clause.numbering <;> rfl

theorem assemble_cons (clause : RenderedClause) (clauses : List RenderedClause) :
    ∃ behind, assemble (clause :: clauses) = block clause ++ behind ∧
      (clauses ≠ [] → ∃ between, behind = between ++ assemble clauses) := by
  cases clauses with
  | nil => exact ⟨[], by simp [assemble, Text.joinWith], nofun⟩
  | cons next clauses =>
      refine ⟨"\n\n".toList ++ assemble (next :: clauses), ?_, fun _ => ⟨_, rfl⟩⟩
      simp [assemble, Text.joinWith, List.intercalate]

/-- A clause with a number begins with the mark of an article. -/
theorem exists_block_eq {clause : RenderedClause} (isNew : clause.clause.numbering = .newNumber) :
    ∃ behind, block clause = articleMark ++ behind := by
  have isHeading : heading clause = articleMark ++ Text.trimEnd (' ' :: clause.title) := by
    have trimmed := Text.trimEnd_append_cons "[[ARTICLE]".toList
      (show isBlank ']' = false by decide) (' ' :: clause.title)
    rw [heading, isNew]
    exact trimmed
  have filled : (heading clause).isEmpty = false := by
    rw [isHeading]
    rfl
  rw [block, filled, isHeading]
  exact ⟨_, List.append_assoc ..⟩

/-- Every title with a number puts a marker into the text. -/
theorem length_numberedTitles_le (clauses : List RenderedClause) (before : Option Char) (front : Text)
    (skip : Nat) (within : skip ≤ front.length) :
    (numberedTitles clauses).length ≤
      (markersOf (Piece.cutAfter recognise before skip (front ++ assemble clauses))).count .article := by
  induction clauses generalizing before front skip with
  | nil => exact Nat.zero_le _
  | cons clause clauses ih =>
      obtain ⟨behind, isText, goesOn⟩ := assemble_cons clause clauses
      have later (before : Option Char) (front : Text) (skip : Nat) (within : skip ≤ front.length) :
          (numberedTitles clauses).length ≤ (markersOf
            (Piece.cutAfter recognise before skip (front ++ behind))).count .article := by
        cases clauses with
        | nil => exact Nat.zero_le _
        | cons next clauses =>
            obtain ⟨between, rfl⟩ := goesOn (List.cons_ne_nil next clauses)
            rw [← List.append_assoc]
            refine ih before (front ++ between) skip (Nat.le_trans within ?_)
            rw [List.length_append]
            exact Nat.le_add_right _ _
      rw [numberedTitles_cons, isText]
      by_cases isNew : clause.clause.numbering = .newNumber
      · obtain ⟨more, isBlock⟩ := exists_block_eq isNew
        obtain ⟨pieces, place, isCut⟩ := @exists_articleMark before front (more ++ behind) skip within
        have rest := later place more 0 (Nat.zero_le _)
        rw [if_pos isNew, isBlock, List.append_assoc, isCut]
        simp only [markersOf, List.filterMap_append, List.filterMap_cons, List.count_append,
          List.count_cons_self, List.length_append, List.length_singleton] at rest ⊢
        omega
      · rw [if_neg isNew, List.nil_append, ← List.append_assoc]
        refine later before (front ++ block clause) skip (Nat.le_trans within ?_)
        rw [List.length_append]
        exact Nat.le_add_right _ _

/-- The line of a table of contents for an article. -/
def entry (number title : Text) : Text := number ++ ':' :: ' ' :: title

theorem contentsLines_eq (label : Text) (number : Nat) (titles : List Text) :
    contentsLines label number titles =
      List.zipWith (fun number title => entry (label ++ ' ' :: Text.ofNat number) title)
        (List.range' number titles.length) titles := by
  induction titles generalizing number with
  | nil => rfl
  | cons title titles ih =>
      have colon : (": " : Text) = [':', ' '] := rfl
      rw [contentsLines, ih, List.length_cons, List.range'_succ, List.zipWith_cons_cons, entry, colon,
        List.append_assoc, List.cons_append, List.cons_append, List.nil_append]

/-- The table of contents with the texts that numbering writes for the articles. -/
def numberedContents (label heading : Text) (rendered : List RenderedClause) : Text :=
  match numberedTitles rendered with
  | [] => []
  | titles => Text.unlines (heading :: List.zipWith entry (articleTexts label (assemble rendered)) titles)

theorem ne_colon_of_mem_ofNat {number : Nat} {c : Char} (member : c ∈ Text.ofNat number) : c ≠ ':' := by
  rintro rfl
  exact absurd (Nat.isDigit_of_mem_toDigits (by decide) (by decide) member) (by decide)

/-- A number ends at the colon behind it. -/
theorem ofNat_append_inj {number other : Nat} {rest otherRest : Text}
    (same : Text.ofNat number ++ ':' :: rest = Text.ofNat other ++ ':' :: otherRest) :
    number = other ∧ rest = otherRest := by
  obtain ⟨between, isOther, behind⟩ :=
    Tokenised.exists_of_append_eq (fun c => ne_colon_of_mem_ofNat) same
  cases between with
  | nil => exact ⟨Text.ofNat_injective (isOther.trans (List.append_nil _)).symm, (List.cons.inj behind).2⟩
  | cons c between =>
      have isColon : ':' = c := (List.cons.inj behind).1
      refine absurd isColon.symm (@ne_colon_of_mem_ofNat other c ?_)
      rw [isOther]
      simp

theorem unlines_cons (first : Text) (lines : List Text) :
    Text.unlines (first :: lines) = first ++ lines.flatMap ('\n' :: ·) := by
  induction lines generalizing first with
  | nil => simp [Text.unlines, Text.joinWith]
  | cons line lines ih =>
      rw [Text.unlines, Text.joinWith, List.intercalate_cons_cons, ← Text.joinWith, ← Text.unlines, ih]
      simp

/-- The numbers can be read off the lines. -/
theorem numbers_eq_of_lines {label : Text} {numbers others : List Nat} {titles : List Text}
    (length : numbers.length = titles.length) (otherLength : others.length = titles.length)
    (same : (List.zipWith (fun number title => entry (label ++ ' ' :: Text.ofNat number) title)
        numbers titles).flatMap ('\n' :: ·) =
      (List.zipWith (fun number title => entry (label ++ ' ' :: Text.ofNat number) title)
        others titles).flatMap ('\n' :: ·)) : numbers = others := by
  induction titles generalizing numbers others with
  | nil =>
      rw [List.eq_nil_of_length_eq_zero length, List.eq_nil_of_length_eq_zero otherLength]
  | cons title titles ih =>
      obtain ⟨number, numbers, rfl⟩ := List.exists_cons_of_length_eq_add_one length
      obtain ⟨other, others, rfl⟩ := List.exists_cons_of_length_eq_add_one otherLength
      simp only [List.zipWith_cons_cons, List.flatMap_cons, List.cons_append, List.cons.injEq,
        true_and] at same
      rw [entry, entry, List.append_assoc, List.append_assoc, List.append_assoc, List.append_assoc] at same
      have fromNumber := (List.cons.inj (List.append_cancel_left same)).2
      obtain ⟨rfl, behind⟩ := ofNat_append_inj fromNumber
      have later := List.append_cancel_left (List.cons.inj behind).2
      rw [ih (Nat.succ_inj.mp length) (Nat.succ_inj.mp otherLength) later]

section Agreement

variable {label heading : Text} {rendered : List RenderedClause}

/-- The markers in the text that clauses make up. -/
def markersIn (rendered : List RenderedClause) : List NumberingMarker :=
  markersOf (Piece.cut recognise (assemble rendered))

theorem articleTexts_eq (label text : Text) :
    articleTexts label text =
      (numbersFrom 0 (markersOf (Piece.cut recognise text))).map (Numbering.label label) :=
  filterMap_writtenPieces label .start _

theorem enough_articles : (numberedTitles rendered).length ≤ (markersIn rendered).count .article :=
  length_numberedTitles_le rendered none [] 0 (Nat.zero_le _)

theorem numberedTitles_eq_nil_iff :
    numberedTitles rendered = [] ↔ ∀ clause ∈ rendered, clause.clause.numbering ≠ .newNumber := by
  simp [numberedTitles]

theorem contents_of_ne_nil (filled : numberedTitles rendered ≠ []) :
    contents label heading rendered =
      heading ++ (List.zipWith (fun number title => entry (label ++ ' ' :: Text.ofNat number) title)
        (List.range' 1 (numberedTitles rendered).length) (numberedTitles rendered)).flatMap
          ('\n' :: ·) := by
  rw [contents]
  split
  · rename_i none
    exact absurd none filled
  · rw [contentsLines_eq, unlines_cons]

theorem numberedContents_of_ne_nil (filled : numberedTitles rendered ≠ []) :
    numberedContents label heading rendered =
      heading ++ (List.zipWith (fun number title => entry (Numbering.label label number) title)
        ((numbersFrom 0 (markersIn rendered)).take (numberedTitles rendered).length)
        (numberedTitles rendered)).flatMap ('\n' :: ·) := by
  have cut (numbers : List Nat) (titles : List Text) :
      List.zipWith entry (numbers.map (Numbering.label label)) titles =
        List.zipWith (fun number title => entry (Numbering.label label number) title)
          (numbers.take titles.length) titles := by
    induction titles generalizing numbers with
    | nil => simp
    | cons title titles ih =>
        cases numbers with
        | nil => rfl
        | cons number numbers =>
            rw [List.map_cons, List.zipWith_cons_cons, ih, List.length_cons, List.take_succ_cons,
              List.zipWith_cons_cons]
  rw [numberedContents]
  split
  · rename_i none
    exact absurd none filled
  · rw [articleTexts_eq, cut, unlines_cons]
    rfl

/-- Without a label the table has a space where the numbering has none. -/
theorem contents_ne_of_no_label (filled : numberedTitles rendered ≠ []) :
    contents [] heading rendered ≠ numberedContents [] heading rendered := by
  have enough := @enough_articles rendered
  rw [contents_of_ne_nil filled, numberedContents_of_ne_nil filled]
  obtain ⟨title, titles, isTitles⟩ := List.exists_cons_of_ne_nil filled
  rw [isTitles, List.length_cons] at enough ⊢
  have isGiven : NumberingMarker.article ∈ markersIn rendered :=
    List.count_pos_iff.mp (Nat.lt_of_lt_of_le (Nat.succ_pos _) enough)
  obtain ⟨numbers, isNumbers⟩ := List.head?_eq_some_iff.mp (head?_numbersFrom_zero isGiven)
  rw [isNumbers, List.take_succ_cons, List.range'_succ]
  intro same
  have lines := List.append_cancel_left same
  rw [List.zipWith_cons_cons, List.zipWith_cons_cons, List.flatMap_cons, List.flatMap_cons] at lines
  have firsts := (List.cons.inj (List.cons.inj lines).2).1
  exact absurd firsts (by decide)

theorem contents_eq_iff_of_label (labelled : label ≠ []) (filled : numberedTitles rendered ≠ []) :
    contents label heading rendered = numberedContents label heading rendered ↔
      FreeBetween (numberedTitles rendered).length (markersIn rendered) := by
  rw [contents_of_ne_nil filled, numberedContents_of_ne_nil filled, List.append_right_inj,
    ← take_numbersFrom_zero_iff enough_articles]
  simp only [label_of_ne_nil labelled]
  constructor
  · intro same
    refine (numbers_eq_of_lines List.length_range' ?_ same).symm
    rw [List.length_take, length_numbersFrom]
    exact Nat.min_eq_left enough_articles
  · intro same
    rw [same]

end Agreement

/-- The table of contents is empty exactly if no clause takes a new number.  The numbering pass has a
text for every line of the table, and the table has these texts exactly if there are no lines, or if
there is a label and no reset stands between the articles that are counted. -/
theorem contents_eq_numberedContents_iff (label heading : Text) (rendered : List RenderedClause) :
    (contents label heading rendered = [] ↔
      ∀ clause ∈ rendered, clause.clause.numbering ≠ .newNumber) ∧
    (Numbering.number label .start (assemble rendered)).1 =
      (writtenPieces label .start (Piece.cut recognise (assemble rendered))).flatMap (·.2) ∧
    (numberedTitles rendered).length ≤ (articleTexts label (assemble rendered)).length ∧
    (contents label heading rendered = numberedContents label heading rendered ↔
      numberedTitles rendered = [] ∨
        label ≠ [] ∧ FreeBetween (numberedTitles rendered).length (markersIn rendered)) := by
  refine ⟨?empty, flatMap_snd_writtenPieces.symm, ?enough, ?agree⟩
  case empty =>
    rw [← numberedTitles_eq_nil_iff]
    constructor
    · intro isEmpty
      by_contra filled
      rw [contents_of_ne_nil filled] at isEmpty
      obtain ⟨title, titles, isTitles⟩ := List.exists_cons_of_ne_nil filled
      rw [isTitles, List.length_cons, List.range'_succ, List.zipWith_cons_cons, List.flatMap_cons] at isEmpty
      cases (List.append_eq_nil_iff.mp isEmpty).2
    · intro none
      rw [contents, none]
  case enough =>
    rw [articleTexts_eq, List.length_map, length_numbersFrom]
    exact enough_articles
  case agree =>
    by_cases none : numberedTitles rendered = []
    · rw [contents, numberedContents, none]
      simp
    · by_cases noLabel : label = []
      · subst noLabel
        simp [none, contents_ne_of_no_label none]
      · rw [contents_eq_iff_of_label noLabel none]
        simp [none, noLabel]

/-- A clause that takes a number. -/
def partiesClause : RenderedClause where
  clause :=
    { code := .text "a"
      title := .text "Partijen"
      text := .text "Tekst."
      order := 0
      numbering := .newNumber
      isConditional := false
      conditionField := .null
      condition := .null
      userTitle := .null
      userText := .null
      caseText := .null
      conditionError := none }
  title := "Partijen"
  body := "Tekst."

/-- The article is numbered without a space in front of the number, which the table has. -/
theorem contents_partiesClause_without_label :
    (Numbering.number [] .start (assemble [partiesClause])).1 = "1 Partijen\nTekst.".toList ∧
      contents [] contentsHeading [partiesClause] = "Inhoudsopgave\n 1: Partijen".toList ∧
      numberedContents [] contentsHeading [partiesClause] = "Inhoudsopgave\n1: Partijen".toList ∧
      contents [] contentsHeading [partiesClause] ≠ numberedContents [] contentsHeading [partiesClause] := by
  decide +kernel

end Covenant.Articles
