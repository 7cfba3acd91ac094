import Covenant.Naming
import Covenant.Proofs.Text.Lower
import Covenant.Proofs.Text.Pieces

/-!
# The words of names

Joining the words of an ASCII name forgets its underscores and the case of its letters, and nothing
else.  A joined name shows where a word starts by a capital after a small letter or a digit, or by a
capital between a capital and a small letter.  Words that begin with a digit, and single letters next to
each other, are not told apart in it.  So a name whose words are joined and separated again comes back as
`Naming.respelled` says, with an underscore just where a start is shown.
-/

namespace Covenant

namespace Naming

/-- A word of a name as the joined name has it. -/
def joinedWord : Text → Text
  | [] => []
  | c :: rest => upperChar c ++ Text.lower rest

theorem pascal_eq_flatMap (name : Text) :
    pascal name = (Text.splitAt '_' name).flatMap joinedWord := rfl

theorem joinedWord_of_ascii {word : Text} (ascii : Text.IsAscii word) :
    Text.IsAscii (joinedWord word) ∧
      (joinedWord word).map Char.toLower = word.map Char.toLower := by
  cases word with
  | nil => exact ⟨nofun, rfl⟩
  | cons c rest =>
      obtain ⟨asciiFirst, asciiRest⟩ := List.forall_mem_cons.mp ascii
      obtain ⟨upperLow, lowered⟩ := Text.toUpper_of_ascii asciiFirst
      rw [joinedWord, Text.lower_of_ascii asciiRest, upperChar, if_pos asciiFirst]
      refine ⟨fun d member => ?_, ?_⟩
      · rcases List.mem_cons.mp member with rfl | member
        · exact upperLow
        · obtain ⟨e, inRest, rfl⟩ := List.mem_map.mp member
          exact (Text.toLower_of_ascii (asciiRest e inRest)).1
      · rw [List.singleton_append, List.map_cons, List.map_cons, lowered, List.map_map]
        congr 1
        exact List.map_congr_left fun d inRest => (Text.toLower_of_ascii (asciiRest d inRest)).2

theorem isAscii_removeChar {name : Text} (ascii : Text.IsAscii name) :
    Text.IsAscii (Text.removeChar '_' name) :=
  fun c member => ascii c (List.mem_of_mem_filter member)

/-- The joined name of an ASCII name, behind other ASCII characters and in lower case. -/
theorem lower_append_pascal {start name : Text} (startAscii : Text.IsAscii start)
    (ascii : Text.IsAscii name) :
    Text.lower (start ++ pascal name) = Text.lower start ++ Text.lower (Text.removeChar '_' name) := by
  have words : ∀ word ∈ Text.splitAt '_' name, Text.IsAscii word :=
    fun word isWord c member => ascii c (Text.mem_of_mem_splitAt isWord member)
  have joined : (pascal name).map Char.toLower = (Text.removeChar '_' name).map Char.toLower := by
    rw [pascal_eq_flatMap, ← Text.flatten_splitAt, List.map_flatMap, List.map_flatten]
    exact congrArg List.flatten
      (List.map_congr_left fun word isWord => (joinedWord_of_ascii (words word isWord)).2)
  have asciiWhole : Text.IsAscii (start ++ pascal name) := by
    intro c member
    rcases List.mem_append.mp member with inStart | inName
    · exact startAscii c inStart
    · obtain ⟨word, isWord, inWord⟩ := List.mem_flatMap.mp inName
      exact (joinedWord_of_ascii (words word isWord)).1 c inWord
  rw [Text.lower_of_ascii asciiWhole, List.map_append, joined, Text.lower_of_ascii startAscii,
    Text.lower_of_ascii (isAscii_removeChar ascii)]

end Naming

end Covenant

namespace Covenant.Naming

/-- The words of a name in lower case. -/
def words (name : Text) : List Text :=
  ((Text.splitAt '_' name).filter fun word => !word.isEmpty).map Text.lower

/-- Whether a capital behind a word shows as the start of another: behind a single letter only when a
small letter follows the capital, behind a longer word when that ends with a small letter or a
digit. -/
def showsCapital (followed : Bool) : Text → Bool
  | [] => false
  | [d] => isNameDigit d || (isLower d && followed)
  | _ :: d :: word => (d :: word).getLast?.any fun last => isLower last || isNameDigit last

/-- Whether the start of a word shows when it is joined to the word before. -/
def showsStart (before : Text) : Text → Bool
  | [] => false
  | c :: rest => isLower c && showsCapital (rest.head?.any isLower) before

/-- Words after another word, with an underscore where the start of a word shows. -/
def respelledAfter : Text → List Text → Text
  | _, [] => []
  | before, word :: later =>
      (if showsStart before word then '_' :: word else word) ++ respelledAfter word later

/-- The spelling that a name gets when its words are joined and separated again. -/
def respelled (name : Text) : Text :=
  match words name with
  | [] => []
  | word :: later => word ++ respelledAfter word later

/-! ### Letters -/

theorem isUpper_toUpper {c : Char} (ascii : c.toNat < 0x80) :
    isUpper c.toLower.toUpper = isLower c.toLower ∧ isLower c.toLower.toUpper = false ∧
      isNameDigit c.toLower.toUpper = isNameDigit c.toLower ∧ isUpper c.toLower = false := by
  refine Text.ascii_cases ascii ?_
  decide +kernel

theorem toUpper_toLower {c : Char} (ascii : c.toNat < 0x80) :
    c.toLower.toUpper = c.toUpper ∧ (c.toLower = '_' ↔ c = '_') := by
  refine Text.ascii_cases ascii ?_
  decide +kernel

/-- A word of ASCII in lower case. -/
def IsWord (word : Text) : Prop := word ≠ [] ∧ ∀ c ∈ word, c.toNat < 0x80 ∧ c.toLower = c

theorem isWord_of_mem_words {name word : Text} (ascii : Text.IsAscii name)
    (member : word ∈ words name) : IsWord word := by
  obtain ⟨piece, kept, rfl⟩ := List.mem_map.mp member
  obtain ⟨isPiece, filled⟩ := List.mem_filter.mp kept
  have pieceAscii : Text.IsAscii piece :=
    fun c inPiece => ascii c (Text.mem_of_mem_splitAt isPiece inPiece)
  rw [Text.lower_of_ascii pieceAscii]
  refine ⟨by simpa using filled, fun c inWord => ?_⟩
  obtain ⟨d, inPiece, rfl⟩ := List.mem_map.mp inWord
  exact Text.toLower_of_ascii (pieceAscii d inPiece)

theorem pascal_eq_words {name : Text} (ascii : Text.IsAscii name) :
    pascal name = (words name).flatMap Text.capitalize := by
  have each (pieces : List Text) (piecesAscii : ∀ piece ∈ pieces, Text.IsAscii piece) :
      pieces.flatMap joinedWord =
        ((pieces.filter fun word => !word.isEmpty).map Text.lower).flatMap Text.capitalize := by
    induction pieces with
    | nil => rfl
    | cons piece pieces ih =>
        obtain ⟨own, later⟩ := List.forall_mem_cons.mp piecesAscii
        rw [List.flatMap_cons, ih later]
        cases piece with
        | nil => rfl
        | cons c rest =>
            obtain ⟨firstAscii, restAscii⟩ := List.forall_mem_cons.mp own
            have lowAscii := (Text.toLower_of_ascii firstAscii).1
            rw [List.filter_cons_of_pos (by rfl), List.map_cons, List.flatMap_cons,
              Text.lower_of_ascii own, List.map_cons, Text.capitalize, joinedWord,
              Text.lower_of_ascii restAscii, upperChar, upperChar, if_pos firstAscii,
              if_pos lowAscii, (toUpper_toLower firstAscii).1]
  rw [pascal_eq_flatMap, words]
  exact each _ fun piece isPiece c member => ascii c (Text.mem_of_mem_splitAt isPiece member)

/-! ### Separating joined words -/

theorem separateWords_append {small : Text} (noCapital : ∀ c ∈ small, isUpper c = false)
    (before : Option Char) (rest : Text) :
    separateWords before (small ++ rest) =
      small ++ separateWords (small.getLast?.or before) rest := by
  induction small generalizing before with
  | nil => rfl
  | cons c small ih =>
      obtain ⟨own, later⟩ := List.forall_mem_cons.mp noCapital
      have noStart : startsWord before c (small ++ rest).head? = false := by
        rw [startsWord, own, Bool.false_and]
      have last : (c :: small).getLast?.or before = small.getLast?.or (some c) := by
        cases small with
        | nil => rfl
        | cons d small => simp [List.getLast?_eq_some_getLast]
      rw [List.cons_append, separateWords, noStart, if_neg Bool.false_ne_true, ih later, last,
        List.cons_append]

/-- A word in a joined name begins with a capital or with no letter at all. -/
theorem not_isLower_head? {later : List Text} (areWords : ∀ word ∈ later, IsWord word) :
    (later.flatMap Text.capitalize).head?.any isLower = false := by
  cases later with
  | nil => rfl
  | cons word later =>
      obtain ⟨filled, ascii⟩ := areWords word List.mem_cons_self
      cases word with
      | nil => exact absurd rfl filled
      | cons c rest =>
          obtain ⟨low, same⟩ := ascii c List.mem_cons_self
          have capital := (isUpper_toUpper low).2.1
          rw [same] at capital
          simp [Text.capitalize, upperChar, low, capital]

/-- The start of a word is seen in the joined name just where it shows. -/
theorem startsWord_joined {before rest : Text} {c : Char} {more : Text} (isBefore : IsWord before)
    (isWord : IsWord (c :: rest)) (noLetter : more.head?.any isLower = false) :
    startsWord (Text.capitalize before).getLast? c.toUpper (rest ++ more).head? =
      showsStart before (c :: rest) := by
  obtain ⟨filled, ascii⟩ := isBefore
  obtain ⟨low, same⟩ := isWord.2 c List.mem_cons_self
  have capital := (isUpper_toUpper low).1
  rw [same] at capital
  have next : (rest ++ more).head?.any isLower = rest.head?.any isLower := by
    cases rest with
    | nil => exact noLetter
    | cons d rest => rfl
  rw [startsWord, showsStart, capital, next]
  congr 1
  cases before with
  | nil => exact absurd rfl filled
  | cons d before =>
      obtain ⟨dLow, dSame⟩ := ascii d List.mem_cons_self
      cases before with
      | nil =>
          have forms := isUpper_toUpper dLow
          rw [dSame] at forms
          obtain ⟨isCapital, notSmall, sameDigit, -⟩ := forms
          simp [Text.capitalize, upperChar, showsCapital, dLow, isCapital, notSmall, sameDigit]
      | cons e before =>
          have isLast : (Text.capitalize (d :: e :: before)).getLast? = (e :: before).getLast? := by
            simp [Text.capitalize, upperChar, dLow, List.getLast?_cons_cons]
          obtain ⟨last, given⟩ : ∃ last, (e :: before).getLast? = some last :=
            ⟨_, List.getLast?_eq_some_getLast (List.cons_ne_nil _ _)⟩
          obtain ⟨lastLow, lastSame⟩ :=
            ascii last (List.mem_cons_of_mem d (List.mem_of_getLast? given))
          have noCapital := (isUpper_toUpper lastLow).2.2.2
          rw [lastSame] at noCapital
          rw [isLast, showsCapital, given]
          simp [noCapital]

theorem map_toLower_eq {word : Text} (low : ∀ c ∈ word, c.toNat < 0x80 ∧ c.toLower = c) :
    word.map Char.toLower = word :=
  (List.map_congr_left fun c member => (low c member).2).trans (List.map_id word)

/-- Separating goes through a word with no underscore but one before its first letter. -/
theorem separateWords_capitalize {c : Char} {rest : Text} (isWord : IsWord (c :: rest))
    (before : Option Char) (more : Text) :
    (separateWords before (Text.capitalize (c :: rest) ++ more)).map Char.toLower =
      (if startsWord before c.toUpper (rest ++ more).head? then '_' :: c :: rest else c :: rest) ++
        (separateWords (Text.capitalize (c :: rest)).getLast? more).map Char.toLower := by
  obtain ⟨⟨low, same⟩, restLow⟩ := List.forall_mem_cons.mp isWord.2
  have joined : Text.capitalize (c :: rest) = c.toUpper :: rest := by
    simp [Text.capitalize, upperChar, low]
  have small : (c.toUpper).toLower = c := (Text.toUpper_of_ascii low).2.trans same
  have noCapital : ∀ d ∈ rest, isUpper d = false := by
    intro d member
    obtain ⟨dLow, dSame⟩ := restLow d member
    rw [← dSame]
    exact (isUpper_toUpper dLow).2.2.2
  have onward : rest.getLast?.or (some c.toUpper) = (c.toUpper :: rest).getLast? := by
    rw [List.getLast?_cons]
    cases rest.getLast? <;> rfl
  rw [joined, List.cons_append, separateWords, separateWords_append noCapital, onward]
  split <;> simp [small, map_toLower_eq restLow]

theorem map_toLower_separateWords {before : Text} {later : List Text} (isBefore : IsWord before)
    (areWords : ∀ word ∈ later, IsWord word) :
    (separateWords (Text.capitalize before).getLast? (later.flatMap Text.capitalize)).map Char.toLower =
      respelledAfter before later := by
  induction later generalizing before with
  | nil => rfl
  | cons word later ih =>
      obtain ⟨isWord, othersAre⟩ := List.forall_mem_cons.mp areWords
      cases word with
      | nil => exact absurd rfl isWord.1
      | cons c rest =>
          rw [List.flatMap_cons, separateWords_capitalize isWord, ih isWord othersAre,
            startsWord_joined isBefore isWord (not_isLower_head? othersAre), respelledAfter]

theorem isAscii_separateWords {text : Text} (ascii : Text.IsAscii text) (before : Option Char) :
    Text.IsAscii (separateWords before text) := by
  induction text generalizing before with
  | nil => exact ascii
  | cons c text ih =>
      obtain ⟨own, later⟩ := List.forall_mem_cons.mp ascii
      rw [separateWords]
      split
      · exact List.forall_mem_cons.mpr ⟨by decide, List.forall_mem_cons.mpr ⟨own, ih later _⟩⟩
      · exact List.forall_mem_cons.mpr ⟨own, ih later _⟩

theorem isAscii_pascal {name : Text} (ascii : Text.IsAscii name) : Text.IsAscii (pascal name) := by
  rw [pascal_eq_flatMap]
  intro c member
  obtain ⟨word, isWord, inWord⟩ := List.mem_flatMap.mp member
  exact (joinedWord_of_ascii fun d inPiece => ascii d (Text.mem_of_mem_splitAt isWord inPiece)).1 c inWord

/-- Joining the words of a name and separating them again. -/
theorem snake_pascal {name : Text} (ascii : Text.IsAscii name) :
    snake (pascal name) = respelled name := by
  rw [snake, Text.lower_of_ascii (isAscii_separateWords (isAscii_pascal ascii) none),
    pascal_eq_words ascii, respelled]
  have areWords : ∀ word ∈ words name, IsWord word := fun word => isWord_of_mem_words ascii
  cases isWords : words name with
  | nil => rfl
  | cons word later =>
      rw [isWords] at areWords
      obtain ⟨isWord, othersAre⟩ := List.forall_mem_cons.mp areWords
      cases word with
      | nil => exact absurd rfl isWord.1
      | cons c rest =>
          -- no start shows before the first word
          have noStart (next : Option Char) : startsWord none c.toUpper next = false := by
            rw [startsWord, Option.any_none, Bool.and_false]
          rw [List.flatMap_cons, separateWords_capitalize isWord, noStart,
            if_neg Bool.false_ne_true, map_toLower_separateWords isWord othersAre]

/-! ### Names whose words all show -/

/-- Words in lower case with single underscores between them, all of whose starts show. -/
def IsShown (name : Text) : Prop :=
  ∃ words, name = Text.joinWith ['_'] words ∧ (∀ word ∈ words, IsWord word ∧ '_' ∉ word) ∧
    words.IsChain fun before word => showsStart before word = true

theorem words_joinWith {parts : List Text} (areWords : ∀ word ∈ parts, IsWord word ∧ '_' ∉ word) :
    words (Text.joinWith ['_'] parts) = parts := by
  cases parts with
  | nil => rfl
  | cons first later =>
      rw [words, Text.splitAt_joinWith (List.cons_ne_nil first later) fun word member =>
        (areWords word member).2]
      have filled : (first :: later).filter (fun word => !word.isEmpty) = first :: later :=
        List.filter_eq_self.mpr fun word member => by simpa using (areWords word member).1.1
      rw [filled]
      refine (List.map_congr_left fun word member => ?_).trans (List.map_id _)
      have low := (areWords word member).1.2
      rw [Text.lower_of_ascii fun c inWord => (low c inWord).1, map_toLower_eq low, id]

theorem append_respelledAfter {before : Text} {later : List Text}
    (shown : (before :: later).IsChain fun before word => showsStart before word = true) :
    before ++ respelledAfter before later = Text.joinWith ['_'] (before :: later) := by
  induction later generalizing before with
  | nil => simp [respelledAfter, Text.joinWith]
  | cons word later ih =>
      obtain ⟨starts, rest⟩ := List.isChain_cons_cons.mp shown
      rw [respelledAfter, if_pos starts, List.cons_append, ih rest, Text.joinWith, Text.joinWith,
        List.intercalate_cons_cons, List.append_assoc, List.singleton_append]

/-- A name whose words all show comes back as it was. -/
theorem respelled_of_isShown {name : Text} (shown : IsShown name) : respelled name = name := by
  obtain ⟨parts, rfl, areWords, starts⟩ := shown
  rw [respelled, words_joinWith areWords]
  cases parts with
  | nil => rfl
  | cons word later => exact append_respelledAfter starts

/-- Single letters next to each other are run together. -/
example : respelled "optie_a_b" = "optie_ab" := by decide +kernel

end Covenant.Naming
