import Covenant.Proofs.Naming.Words

/-!
# The two spellings of an identifier

An identifier with an underscore has the other spelling `pascal`, which has none, and one without an
underscore has the other spelling `snake` where that has some.  Going to the second spelling and back
gives a name without underscores again, up to the case of letters.  A name with underscores comes back
as `Naming.respelled` says, which need not be the name.
-/

namespace Covenant.Naming

variable {name other back : Text}

/-! ### Identifiers -/

theorem kind_toLower {c : Char} (ascii : c.toNat < 0x80) :
    (isLower c.toLower || isUpper c.toLower) = (isLower c || isUpper c) ∧
      isNameChar c.toLower = isNameChar c ∧ (c.toLower = '\n' ↔ c = '\n') := by
  refine Text.ascii_cases ascii ?_
  decide +kernel

theorem isNameChar_ascii {c : Char} (isChar : isNameChar c = true) : c.toNat < 0x80 := by
  simp only [isNameChar, isLower, isUpper, isNameDigit, Bool.or_eq_true, Bool.and_eq_true,
    decide_eq_true_eq, Char.le_def, UInt32.le_iff_toNat_le] at isChar
  rcases isChar with ((⟨-, high⟩ | ⟨-, high⟩) | ⟨-, high⟩) | rfl
  · exact Nat.lt_of_le_of_lt high (by decide)
  · exact Nat.lt_of_le_of_lt high (by decide)
  · exact Nat.lt_of_le_of_lt high (by decide)
  · decide

/-- An identifier is a letter with other characters of names, and at most one line feed behind. -/
theorem isIdentifier_iff : isIdentifier name = true ↔ ∃ c body ending,
    name = c :: (body ++ ending) ∧ (isLower c || isUpper c) = true ∧
      (∀ d ∈ body, isNameChar d = true) ∧ (ending = [] ∨ ending = ['\n']) := by
  cases name with
  | nil => simp [isIdentifier]
  | cons c rest =>
      rw [isIdentifier]
      constructor
      · intro holds
        rw [Bool.and_eq_true, List.all_eq_true] at holds
        obtain ⟨letter, chars⟩ := holds
        split at chars
        · rename_i isLast
          refine ⟨c, rest.dropLast, ['\n'], ?_, letter, chars, .inr rfl⟩
          rw [List.dropLast_append_getLast? _ isLast]
        · exact ⟨c, rest, [], by rw [List.append_nil], letter, chars, .inl rfl⟩
      · rintro ⟨first, body, ending, same, letter, chars, isEnding⟩
        obtain ⟨rfl, rfl⟩ := List.cons.inj same
        rw [Bool.and_eq_true, List.all_eq_true]
        refine ⟨letter, ?_⟩
        rcases isEnding with rfl | rfl
        · rw [List.append_nil]
          rw [if_neg]
          · exact chars
          · intro isLast
            exact absurd (chars '\n' (List.mem_of_getLast? isLast)) (by decide)
        · rw [if_pos (by simp), List.dropLast_concat]
          exact chars

theorem isAscii_of_isIdentifier (identifier : isIdentifier name = true) : Text.IsAscii name := by
  obtain ⟨c, body, ending, rfl, letter, chars, isEnding⟩ := isIdentifier_iff.mp identifier
  intro d member
  rcases List.mem_cons.mp member with rfl | member
  · exact isNameChar_ascii (by rw [isNameChar, letter]; rfl)
  · rcases List.mem_append.mp member with inBody | inEnding
    · exact isNameChar_ascii (chars d inBody)
    · rcases isEnding with rfl | rfl
      · cases inEnding
      · obtain rfl := List.mem_singleton.mp inEnding
        decide

theorem isIdentifier_map_toLower (ascii : Text.IsAscii name) :
    isIdentifier (name.map Char.toLower) = isIdentifier name := by
  cases name with
  | nil => rfl
  | cons c rest =>
      obtain ⟨own, later⟩ := List.forall_mem_cons.mp ascii
      have isLast : (rest.map Char.toLower).getLast? = some '\n' ↔ rest.getLast? = some '\n' := by
        rw [List.getLast?_map, Option.map_eq_some_iff]
        constructor
        · rintro ⟨d, isLast, low⟩
          rw [isLast, (kind_toLower (later d (List.mem_of_getLast? isLast))).2.2.mp low]
        · intro isLast
          exact ⟨'\n', isLast, rfl⟩
      have all (text : Text) (textAscii : Text.IsAscii text) :
          (text.map Char.toLower).all isNameChar = text.all isNameChar := by
        rw [Bool.eq_iff_iff, List.all_map, List.all_eq_true, List.all_eq_true]
        exact forall₂_congr fun d member => by
          rw [Function.comp_apply, (kind_toLower (textAscii d member)).2.1]
      rw [List.map_cons, isIdentifier, isIdentifier, (kind_toLower own).1]
      congr 1
      by_cases ends : rest.getLast? = some '\n'
      · rw [if_pos ends, if_pos (isLast.mpr ends), ← List.map_dropLast]
        exact all _ fun d member => later d ((List.dropLast_sublist rest).subset member)
      · rw [if_neg ends, if_neg (mt isLast.mp ends)]
        exact all _ later

theorem isIdentifier_removeChar (identifier : isIdentifier name = true) :
    isIdentifier (Text.removeChar '_' name) = true := by
  obtain ⟨c, body, ending, rfl, letter, chars, isEnding⟩ := isIdentifier_iff.mp identifier
  have notUnderscore : c ≠ '_' := by
    rintro rfl
    exact absurd letter (by decide)
  refine isIdentifier_iff.mpr ⟨c, Text.removeChar '_' body, ending, ?_, letter,
    fun d member => chars d (List.mem_of_mem_filter member), isEnding⟩
  have kept : Text.removeChar '_' ending = ending := by
    rcases isEnding with rfl | rfl <;> decide
  rw [Text.removeChar, List.filter_cons_of_pos (by simpa using notUnderscore), List.filter_append,
    ← Text.removeChar, ← Text.removeChar, kept]

/-! ### Joined names -/

theorem map_toLower_pascal (ascii : Text.IsAscii name) :
    (pascal name).map Char.toLower = (Text.removeChar '_' name).map Char.toLower := by
  have joined := lower_append_pascal (show Text.IsAscii [] from nofun) ascii
  rwa [List.nil_append, Text.lower_of_ascii (isAscii_pascal ascii),
    Text.lower_of_ascii (isAscii_removeChar ascii)] at joined

theorem mem_map_toLower (ascii : Text.IsAscii name) : '_' ∈ name.map Char.toLower ↔ '_' ∈ name := by
  rw [List.mem_map]
  constructor
  · rintro ⟨c, member, low⟩
    rwa [← (toUpper_toLower (ascii c member)).2.mp low]
  · exact fun member => ⟨'_', member, rfl⟩

theorem not_mem_pascal (ascii : Text.IsAscii name) : '_' ∉ pascal name := by
  rw [← mem_map_toLower (isAscii_pascal ascii), map_toLower_pascal ascii,
    mem_map_toLower (isAscii_removeChar ascii)]
  simp [Text.removeChar]

theorem isIdentifier_pascal (identifier : isIdentifier name = true) :
    isIdentifier (pascal name) = true := by
  have ascii := isAscii_of_isIdentifier identifier
  rw [← isIdentifier_map_toLower (isAscii_pascal ascii), map_toLower_pascal ascii,
    isIdentifier_map_toLower (isAscii_removeChar ascii)]
  exact isIdentifier_removeChar identifier

/-! ### Separated names -/

theorem removeChar_separateWords (before : Option Char) (name : Text) :
    Text.removeChar '_' (separateWords before name) = Text.removeChar '_' name := by
  simp only [Text.removeChar]
  induction name generalizing before with
  | nil => rfl
  | cons c name ih =>
      rw [separateWords]
      split
      · rw [List.filter_cons_of_neg (by decide), List.filter_cons, List.filter_cons, ih]
      · rw [List.filter_cons, List.filter_cons, ih]

theorem snake_eq (ascii : Text.IsAscii name) :
    snake name = (separateWords none name).map Char.toLower :=
  Text.lower_of_ascii (isAscii_separateWords ascii none)

theorem isAscii_snake (ascii : Text.IsAscii name) :
    Text.IsAscii (snake name) ∧ (snake name).map Char.toLower = snake name := by
  rw [snake_eq ascii, List.map_map]
  constructor
  · intro c member
    obtain ⟨d, inName, rfl⟩ := List.mem_map.mp member
    exact (Text.toLower_of_ascii (isAscii_separateWords ascii none d inName)).1
  · exact List.map_congr_left fun d inName =>
      (Text.toLower_of_ascii (isAscii_separateWords ascii none d inName)).2

theorem sameLower_iff (ascii : Text.IsAscii name) (otherAscii : Text.IsAscii other) :
    Text.sameLower other name = true ↔ other.map Char.toLower = name.map Char.toLower := by
  rw [Text.sameLower, beq_iff_eq, Text.lower_of_ascii ascii, Text.lower_of_ascii otherAscii]

/-- The separated name is another name just where it has an underscore. -/
theorem sameLower_snake (ascii : Text.IsAscii name) (bare : '_' ∉ name) :
    Text.sameLower (snake name) name = false ↔ '_' ∈ snake name := by
  obtain ⟨snakeAscii, low⟩ := isAscii_snake ascii
  rw [Bool.eq_false_iff, ne_eq, sameLower_iff ascii snakeAscii, low, not_iff_comm]
  constructor
  · intro noUnderscore
    have noneAdded : '_' ∉ separateWords none name := by
      rwa [snake_eq ascii, mem_map_toLower (isAscii_separateWords ascii none)] at noUnderscore
    have unchanged : separateWords none name = name := by
      have removed := removeChar_separateWords none name
      rwa [Text.removeChar_eq_self noneAdded, Text.removeChar_eq_self bare] at removed
    rw [snake_eq ascii, unchanged]
  · intro same
    rwa [same, mem_map_toLower ascii]

/-- Separating and joining again keeps a name up to the case of letters. -/
theorem sameLower_pascal_snake (ascii : Text.IsAscii name) (bare : '_' ∉ name) :
    Text.sameLower (pascal (snake name)) name = true := by
  obtain ⟨snakeAscii, low⟩ := isAscii_snake ascii
  have removed : Text.removeChar '_' (snake name) = name.map Char.toLower := by
    have sameFilter : (separateWords none name).filter ((fun c => decide (c ≠ '_')) ∘ Char.toLower) =
        Text.removeChar '_' (separateWords none name) :=
      List.filter_congr fun c member => by
        simp [(toUpper_toLower (isAscii_separateWords ascii none c member)).2]
    rw [snake_eq ascii, Text.removeChar, List.filter_map, sameFilter, removeChar_separateWords,
      Text.removeChar_eq_self bare]
  rw [sameLower_iff ascii (isAscii_pascal snakeAscii), map_toLower_pascal snakeAscii, removed,
    List.map_map]
  exact List.map_congr_left fun c member => (Text.toLower_of_ascii (ascii c member)).2

/-! ### Aliases -/

theorem alias?_eq_some_iff : alias? name = some other ↔ isIdentifier name = true ∧
    other = (if '_' ∈ name then pascal name else snake name) ∧
      Text.sameLower other name = false := by
  rw [alias?]
  simp only [List.contains_iff_mem]
  cases isIdentifier name with
  | false => simp
  | true =>
      generalize (if '_' ∈ name then pascal name else snake name) = spelling
      cases same : Text.sameLower spelling name with
      | false =>
          simp only [if_true, Bool.false_eq_true, if_false, Option.some.injEq, true_and]
          constructor
          · rintro rfl
            exact ⟨rfl, same⟩
          · rintro ⟨rfl, -⟩
            rfl
      | true =>
          simp only [if_true, true_and, reduceCtorEq, false_iff, not_and]
          rintro rfl
          simp [same]

/-- An identifier with underscores has its joined name as alias. -/
theorem alias?_of_mem (identifier : isIdentifier name = true) (underscore : '_' ∈ name) :
    alias? name = some (pascal name) := by
  have ascii := isAscii_of_isIdentifier identifier
  refine alias?_eq_some_iff.mpr ⟨identifier, (if_pos underscore).symm, ?_⟩
  rw [Bool.eq_false_iff, ne_eq, sameLower_iff ascii (isAscii_pascal ascii)]
  intro same
  rw [← mem_map_toLower ascii, ← same, mem_map_toLower (isAscii_pascal ascii)] at underscore
  exact not_mem_pascal ascii underscore

/-- The alias of a joined name, where that has one, is its name respelled. -/
theorem alias?_pascal_iff (identifier : isIdentifier name = true) :
    alias? (pascal name) = some other ↔ other = respelled name ∧ '_' ∈ respelled name := by
  have ascii := isAscii_of_isIdentifier identifier
  rw [alias?_eq_some_iff, if_neg (not_mem_pascal ascii), ← snake_pascal ascii]
  have differs := sameLower_snake (isAscii_pascal ascii) (not_mem_pascal ascii)
  constructor
  · rintro ⟨-, rfl, isOther⟩
    exact ⟨rfl, differs.mp isOther⟩
  · rintro ⟨rfl, underscore⟩
    exact ⟨isIdentifier_pascal identifier, rfl, differs.mpr underscore⟩

/-- The alias of a name without underscores has one, and leads back to the name. -/
theorem alias?_of_not_mem (bare : '_' ∉ name) (isAlias : alias? name = some other) :
    '_' ∈ other ∧ ∀ back, alias? other = some back → Text.sameLower back name = true := by
  obtain ⟨identifier, rfl, differs⟩ := alias?_eq_some_iff.mp isAlias
  have ascii := isAscii_of_isIdentifier identifier
  rw [if_neg bare] at differs ⊢
  have underscore := (sameLower_snake ascii bare).mp differs
  refine ⟨underscore, fun back isBack => ?_⟩
  obtain ⟨-, rfl, -⟩ := alias?_eq_some_iff.mp isBack
  rw [if_pos underscore]
  exact sameLower_pascal_snake ascii bare

end Covenant.Naming
