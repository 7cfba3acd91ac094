import Covenant.Proofs.Naming.Spellings

/-!
# Names of several words in the two conventions

A name of at least two words, each of at least two characters, is written with small first letters and
underscores between the words (`has_children`), or with a capital at the start of each word
(`HasChildren`).  In such names every word shows, so each spelling is made from the other without loss.
-/

namespace Covenant.Naming

/-- The letters and digits behind the first letter of a word. -/
def isSmall (c : Char) : Bool := isLower c || isNameDigit c

/-- A letter of a kind, and behind it at least one small letter or digit. -/
def IsWordAfter (isFirst : Char → Bool) (word : Text) : Prop :=
  ∃ c rest, word = c :: rest ∧ isFirst c = true ∧ rest ≠ [] ∧ ∀ d ∈ rest, isSmall d = true

/-- `has_children`: two or more words that begin with a small letter, single underscores between
them. -/
def IsSnakeName (name : Text) : Prop :=
  ∃ parts : List Text, 2 ≤ parts.length ∧ (∀ part ∈ parts, IsWordAfter isLower part) ∧
    name = Text.joinWith ['_'] parts

/-- `HasChildren`: two or more words that begin with a capital, one directly behind the other. -/
def IsPascalName (name : Text) : Prop :=
  ∃ parts : List Text, 2 ≤ parts.length ∧ (∀ part ∈ parts, IsWordAfter isUpper part) ∧
    name = parts.flatten

variable {name other : Text}

/-! ### Words -/

theorem isSmall_spec {c : Char} (small : isSmall c = true) :
    c.toNat < 0x80 ∧ c.toLower = c ∧ c ≠ '_' ∧ isNameChar c = true := by
  have isChar : isNameChar c = true := by
    simp only [isSmall, Bool.or_eq_true] at small
    rcases small with isLetter | isDigit <;> simp [isNameChar, *]
  have ascii := isNameChar_ascii isChar
  refine ⟨ascii, ?_, ?_, isChar⟩
  · revert small
    refine Text.ascii_cases ascii ?_
    decide +kernel
  · rintro rfl
    exact absurd small (by decide)

theorem isUpper_spec {c : Char} (capital : isUpper c = true) :
    c.toNat < 0x80 ∧ isLower c.toLower = true ∧ c.toLower.toUpper = c := by
  have ascii : c.toNat < 0x80 := isNameChar_ascii (by simp [isNameChar, capital])
  refine ⟨ascii, ?_⟩
  revert capital
  refine Text.ascii_cases ascii ?_
  decide +kernel

theorem forall_isSmall {word : Text} (isWord : IsWordAfter isLower word) :
    ∀ c ∈ word, isSmall c = true := by
  obtain ⟨c, rest, rfl, first, -, small⟩ := isWord
  exact List.forall_mem_cons.mpr ⟨by simp [isSmall, first], small⟩

theorem IsWordAfter.isWord {word : Text} (isWord : IsWordAfter isLower word) :
    IsWord word ∧ '_' ∉ word := by
  have small := forall_isSmall isWord
  refine ⟨⟨?_, fun c member => ?_⟩, fun member => (isSmall_spec (small '_' member)).2.2.1 rfl⟩
  · obtain ⟨c, rest, rfl, -⟩ := isWord
    exact List.cons_ne_nil c rest
  · obtain ⟨ascii, low, -⟩ := isSmall_spec (small c member)
    exact ⟨ascii, low⟩

/-- A word of two or more characters ends with a small letter or a digit, so the start of the next
word shows behind it. -/
theorem IsWordAfter.showsStart {before word : Text} (isBefore : IsWordAfter isLower before)
    (isWord : IsWordAfter isLower word) : showsStart before word = true := by
  obtain ⟨c, rest, rfl, first, -⟩ := isWord
  obtain ⟨d, behind, rfl, -, filled, small⟩ := isBefore
  obtain ⟨e, behind, rfl⟩ := List.exists_cons_of_ne_nil filled
  have endsSmall := small _ (List.getLast_mem filled)
  rw [Naming.showsStart, first, Bool.true_and, showsCapital, List.getLast?_eq_some_getLast filled]
  exact endsSmall

/-- The word with a small first letter. -/
theorem IsWordAfter.lower {word : Text} (isWord : IsWordAfter isUpper word) :
    IsWordAfter isLower (Text.lower word) ∧ Text.capitalize (Text.lower word) = word := by
  obtain ⟨c, rest, rfl, capital, filled, small⟩ := isWord
  obtain ⟨ascii, letter, back⟩ := isUpper_spec capital
  have restAscii : Text.IsAscii rest := fun d member => (isSmall_spec (small d member)).1
  have restLow : rest.map Char.toLower = rest :=
    map_toLower_eq fun d member => ⟨restAscii d member, (isSmall_spec (small d member)).2.1⟩
  rw [Text.lower_of_ascii (List.forall_mem_cons.mpr ⟨ascii, restAscii⟩), List.map_cons, restLow]
  refine ⟨⟨c.toLower, rest, rfl, letter, filled, small⟩, ?_⟩
  rw [Text.capitalize, upperChar, if_pos (Text.toLower_of_ascii ascii).1, back, List.singleton_append]

/-! ### Names -/

theorem IsSnakeName.isShown (isName : IsSnakeName name) : IsShown name := by
  obtain ⟨parts, -, areWords, rfl⟩ := isName
  refine ⟨parts, rfl, fun part member => (areWords part member).isWord, ?_⟩
  exact List.Pairwise.isChain
    (List.pairwise_of_forall_mem_list fun before isBefore word isWord =>
      (areWords before isBefore).showsStart (areWords word isWord))

theorem IsSnakeName.underscore_mem (isName : IsSnakeName name) : '_' ∈ name := by
  obtain ⟨parts, several, -, rfl⟩ := isName
  match parts, several with
  | first :: second :: parts, _ => simp [Text.joinWith]

theorem IsSnakeName.isIdentifier (isName : IsSnakeName name) : isIdentifier name = true := by
  obtain ⟨parts, several, areWords, rfl⟩ := isName
  have chars : ∀ c ∈ Text.joinWith ['_'] parts, isNameChar c = true := by
    intro c member
    rcases Text.mem_of_mem_joinWith member with isUnderscore | ⟨part, isPart, inPart⟩
    · rw [List.mem_singleton.mp isUnderscore]
      rfl
    · exact (isSmall_spec (forall_isSmall (areWords part isPart) c inPart)).2.2.2
  match parts, several with
  | first :: second :: parts, _ =>
      obtain ⟨c, rest, rfl, letter, -⟩ := areWords first List.mem_cons_self
      have whole : Text.joinWith ['_'] ((c :: rest) :: second :: parts) =
          c :: (rest ++ '_' :: Text.joinWith ['_'] (second :: parts)) := by
        simp [Text.joinWith]
      rw [whole] at chars ⊢
      refine isIdentifier_iff.mpr ⟨c, _, [], by rw [List.append_nil], by simp [letter], ?_, .inl rfl⟩
      exact (List.forall_mem_cons.mp chars).2

theorem IsSnakeName.snake_pascal (isName : IsSnakeName name) : snake (pascal name) = name := by
  rw [Naming.snake_pascal (isAscii_of_isIdentifier isName.isIdentifier),
    respelled_of_isShown isName.isShown]

/-- A name with underscores is the alias of its own alias. -/
theorem IsSnakeName.alias?_pascal (isName : IsSnakeName name) : alias? (pascal name) = some name := by
  rw [alias?_pascal_iff isName.isIdentifier, respelled_of_isShown isName.isShown]
  exact ⟨rfl, isName.underscore_mem⟩

/-- A name with capitals is made from one with underscores. -/
theorem IsPascalName.exists_snakeName (isName : IsPascalName name) :
    ∃ other, IsSnakeName other ∧ pascal other = name := by
  obtain ⟨parts, several, areWords, rfl⟩ := isName
  have lowWords : ∀ part ∈ parts.map Text.lower, IsWordAfter isLower part := by
    intro part member
    obtain ⟨word, isPart, rfl⟩ := List.mem_map.mp member
    exact (areWords word isPart).lower.1
  have isSnake : IsSnakeName (Text.joinWith ['_'] (parts.map Text.lower)) :=
    ⟨_, by rwa [List.length_map], lowWords, rfl⟩
  refine ⟨_, isSnake, ?_⟩
  rw [pascal_eq_words (isAscii_of_isIdentifier isSnake.isIdentifier),
    words_joinWith fun part member => (lowWords part member).isWord, List.flatMap_map,
    List.flatMap_def]
  congr 1
  exact (List.map_congr_left fun part isPart => (areWords part isPart).lower.2).trans (List.map_id _)

/-- **The two conventions convert into each other without loss.**  So an alias tells, by its spelling,
the name that it belongs to; in a context, where letter case does not count, the aliases of `op_tie` and
`opt_ie` are one name. -/
theorem convert_without_loss :
    (∀ name, IsSnakeName name → snake (pascal name) = name ∧ alias? name = some (pascal name) ∧
      alias? (pascal name) = some name) ∧
    (∀ name, IsPascalName name → pascal (snake name) = name ∧ alias? name = some (snake name)) ∧
    ∀ name other, IsSnakeName name ∧ IsSnakeName other ∨ IsPascalName name ∧ IsPascalName other →
      ∀ shared, alias? name = some shared → alias? other = some shared → name = other := by
  have small (name : Text) (isName : IsSnakeName name) :
      snake (pascal name) = name ∧ alias? name = some (pascal name) ∧
        alias? (pascal name) = some name :=
    ⟨isName.snake_pascal, alias?_of_mem isName.isIdentifier isName.underscore_mem,
      isName.alias?_pascal⟩
  have capital (name : Text) (isName : IsPascalName name) :
      pascal (snake name) = name ∧ alias? name = some (snake name) := by
    obtain ⟨other, isOther, rfl⟩ := isName.exists_snakeName
    rw [isOther.snake_pascal]
    exact ⟨rfl, isOther.alias?_pascal⟩
  refine ⟨small, capital, ?_⟩
  rintro name other (⟨isName, isOther⟩ | ⟨isName, isOther⟩) shared isAlias isOtherAlias
  · obtain rfl := Option.some.inj ((small name isName).2.1.symm.trans isAlias)
    have same := Option.some.inj ((small other isOther).2.1.symm.trans isOtherAlias)
    rw [← isName.snake_pascal, ← same, isOther.snake_pascal]
  · obtain rfl := Option.some.inj ((capital name isName).2.symm.trans isAlias)
    have same := Option.some.inj ((capital other isOther).2.symm.trans isOtherAlias)
    rw [← (capital name isName).1, ← same, (capital other isOther).1]

/-- Words with digits, and of two characters. -/
theorem convert_without_loss_accountName :
    let name : Text := "op_iban2_nl"
    let joined : Text := "OpIban2Nl"
    IsSnakeName name ∧ IsPascalName joined ∧ pascal name = joined ∧ snake joined = name ∧
      alias? name = some joined ∧ alias? joined = some name ∧
      ∀ other, IsSnakeName other → alias? other = some joined → name = other := by
  intro name joined
  have isName : IsSnakeName name :=
    ⟨["op", "iban2", "nl"], by decide, by
      rintro part member
      simp only [List.mem_cons, List.not_mem_nil, or_false] at member
      rcases member with rfl | rfl | rfl
      · exact ⟨'o', ['p'], rfl, by decide, by decide, List.all_eq_true.mp (by decide)⟩
      · exact ⟨'i', ['b', 'a', 'n', '2'], rfl, by decide, by decide, List.all_eq_true.mp (by decide)⟩
      · exact ⟨'n', ['l'], rfl, by decide, by decide, List.all_eq_true.mp (by decide)⟩, rfl⟩
  have isJoined : IsPascalName joined :=
    ⟨["Op", "Iban2", "Nl"], by decide, by
      rintro part member
      simp only [List.mem_cons, List.not_mem_nil, or_false] at member
      rcases member with rfl | rfl | rfl
      · exact ⟨'O', ['p'], rfl, by decide, by decide, List.all_eq_true.mp (by decide)⟩
      · exact ⟨'I', ['b', 'a', 'n', '2'], rfl, by decide, by decide, List.all_eq_true.mp (by decide)⟩
      · exact ⟨'N', ['l'], rfl, by decide, by decide, List.all_eq_true.mp (by decide)⟩, rfl⟩
  have isPascal : pascal name = joined := by decide +kernel
  obtain ⟨small, capital, apart⟩ := convert_without_loss
  obtain ⟨back, isAlias, isBackAlias⟩ := small name isName
  rw [isPascal] at back isAlias isBackAlias
  exact ⟨isName, isJoined, isPascal, back, isAlias, isBackAlias, fun other isOther isOtherAlias =>
    apart name other (.inl ⟨isName, isOther⟩) joined isAlias isOtherAlias⟩

end Covenant.Naming
