import Covenant.Proofs.Context.Layering
import Covenant.Proofs.Template.Structural
import Covenant.Proofs.Template.Tokenised
import Covenant.Proofs.Text.Pieces
import Covenant.Template.Conditional

/-!
# The field of a test

The argument of a conditional tag is read twice: the scanner takes the name in it to pair the tags,
and the test takes a name from it to look up.  The two readings part when an `=` stands in front of
the `!=` at which the test is split, and when there are more exclamation marks in front of the name
than the test takes off.  The name that is looked up then has marks that the name of the tag lacks.
-/

namespace Covenant.Text

variable {before : Text}

/-! ### The first occurrence -/

/-- A separator that ends with its only `=` is first found behind a text without one. -/
theorem splitFirst?_of_free (front : Text) (freeFront : '=' ∉ front) (free : '=' ∉ before)
    (after : Text) :
    splitFirst? (front ++ ['=']) (before ++ (front ++ '=' :: after)) = some (before, after) := by
  have starts (rest : Text) : (front ++ ['=']) <+: (front ++ '=' :: rest) :=
    ⟨rest, by simp⟩
  induction before with
  | nil =>
      obtain ⟨c, text, isText⟩ := List.exists_cons_of_ne_nil (l := front ++ '=' :: after) (by simp)
      have isPrefix := List.isPrefixOf_iff_prefix.mpr (starts after)
      rw [List.nil_append]
      rw [isText] at isPrefix ⊢
      rw [splitFirst?, if_pos isPrefix, ← isText]
      simp
  | cons c before ih =>
      have noPrefix : ¬ (front ++ ['=']) <+: c :: (before ++ (front ++ '=' :: after)) := by
        rintro ⟨rest, whole⟩
        have freeWhole : ∀ d ∈ c :: before ++ front, d ≠ '=' := by
          rintro d member rfl
          rcases List.mem_append.mp member with inBefore | inFront
          · exact free inBefore
          · exact freeFront inFront
        have split : (c :: before ++ front) ++ '=' :: after = front ++ '=' :: rest := by
          simpa using whole.symm
        obtain ⟨between, isFront, -⟩ := Tokenised.exists_of_append_eq freeWhole split
        have size := congrArg List.length isFront
        simp only [List.length_append, List.length_cons] at size
        omega
      have later := ih fun member => free (List.mem_cons_of_mem c member)
      rw [List.cons_append, splitFirst?, if_neg (by rwa [List.isPrefixOf_iff_prefix]), later]
      rfl

/-! ### Marks in other letter cases -/

theorem count_lowerAfter {mark : Char} (areMarks : AreMarks (· == mark)) (own : lowerChar mark = [mark])
    (before text : Text) : (lowerAfter before text).count mark = text.count mark := by
  have lacking {form : Text} (lacks : Lacks (· == mark) form) : form.count mark = 0 := by
    rw [List.count_eq_zero]
    intro member
    simpa using lacks mark member
  induction text generalizing before with
  | nil => rfl
  | cons c text ih =>
      rw [lowerAfter, List.count_append, ih]
      by_cases isMark : c = mark
      · subst isMark
        have noSigma : c ≠ 'Σ' := by
          rintro rfl
          exact absurd (areMarks 'Σ' (by simp)).1 (by decide)
        rw [if_neg noSigma, own, List.count_cons_self, List.count_nil, List.count_cons_self, Nat.add_comm]
      · have noMark : (c == mark) = false := by simpa using isMark
        have sigmas := areMarks.caseless.sigmas
        rw [List.count_cons_of_ne isMark]
        split
        · split
          · rw [lacking (sigmas.of_subset (by simp)), Nat.zero_add]
          · rw [lacking (sigmas.of_subset (by simp)), Nat.zero_add]
        · rw [lacking (areMarks.caseless.lowerChar noMark), Nat.zero_add]

theorem count_eq_of_sameLower (mark : Char) (areMarks : AreMarks (· == mark)) (own : lowerChar mark = [mark])
    {first second : Text} (same : sameLower first second = true) :
    first.count mark = second.count mark := by
  rw [sameLower, beq_iff_eq] at same
  rw [← count_lowerAfter areMarks own [] first, ← count_lowerAfter areMarks own [] second]
  exact congrArg (List.count mark) same

theorem sameLower_nil_cons (c : Char) (text : Text) : sameLower [] (c :: text) = false := by
  have filled := length_le_length_lowerAfter [] (c :: text)
  rw [sameLower, beq_eq_false_iff_ne]
  intro same
  rw [show lowerAfter [] (c :: text) = [] from same.symm] at filled
  simp at filled

theorem count_trim {mark : Char} (notBlank : isBlank mark = false) (text : Text) :
    (trim text).count mark = text.count mark := by
  have lacking {blanks : Text} (allBlank : ∀ c ∈ blanks, isBlank c = true) : blanks.count mark = 0 := by
    rw [List.count_eq_zero]
    intro member
    rw [allBlank mark member] at notBlank
    cases notBlank
  obtain ⟨first, last, firstBlank, lastBlank, whole⟩ := exists_blanks_trim_blanks text
  conv_rhs => rw [whole]
  rw [List.count_append, List.count_append, lacking firstBlank, lacking lastBlank, Nat.zero_add,
    Nat.add_zero]

end Covenant.Text

namespace Covenant.Conditional

/-! ### The name that is looked up -/

/-- A name with no `=` in it and no exclamation mark in front. -/
structure IsFieldName (name : Text) : Prop where
  noEquals : '=' ∉ name
  positive : name.head? ≠ some '!'

/-- Arguments in which the name of the tag is the one that the test looks up. -/
inductive IsPlain : Text → Prop where
  | given {name : Text} (isName : IsFieldName name) : IsPlain name
  | negated {name : Text} (isName : IsFieldName name) : IsPlain ('!' :: name)
  | equals {name value : Text} (isName : IsFieldName name) (apart : name.getLast? ≠ some '!')
      (single : ¬ ['!', '='] <:+: value) : IsPlain (name ++ '=' :: value)
  | differs {name value : Text} (isName : IsFieldName name) : IsPlain (name ++ '!' :: '=' :: value)

/-- How a test reads its argument: the name that it looks up, with the white space around it, and its
answer to what it finds. -/
def reading (argument : Text) : Text × (Option Text → Bool) :=
  match Text.splitFirst? "!=" argument, Text.splitFirst? "=" argument with
  | some (name, expected), _ =>
      (name, fun found => !Text.sameLower (Text.trim (found.getD [])) (Text.trim expected))
  | none, some (name, expected) =>
      (name, fun found => Text.sameLower (Text.trim (found.getD [])) (Text.trim expected))
  | none, none =>
      if argument.head? = some '!' then (argument.tail, fun found => !found.any isTrue)
      else (argument, fun found => found.any isTrue)

variable {argument name value : Text}

theorem splitFirst?_differs (noEquals : '=' ∉ name) (value : Text) :
    Text.splitFirst? "!=" (name ++ '!' :: '=' :: value) = some (name, value) :=
  Text.splitFirst?_of_free ['!'] (by decide) noEquals value

theorem splitFirst?_equals (noEquals : '=' ∉ name) (value : Text) :
    Text.splitFirst? "=" (name ++ '=' :: value) = some (name, value) :=
  Text.splitFirst?_of_free [] (by decide) noEquals value

/-- A difference behind a name without `=` is the one that begins at its end, or stands in the value. -/
theorem infix_differs_iff (noEquals : '=' ∉ name) :
    ['!', '='] <:+: name ++ '=' :: value ↔ name.getLast? = some '!' ∨ ['!', '='] <:+: value := by
  induction name with
  | nil =>
      rw [List.nil_append, List.infix_cons_iff]
      simp
  | cons c name ih =>
      have later := ih fun member => noEquals (List.mem_cons_of_mem c member)
      rw [List.cons_append, List.infix_cons_iff, later]
      cases name with
      | nil => simp [eq_comm]
      | cons d name =>
          have noDiffers : d ≠ '=' := fun same => noEquals (by simp [same])
          simp [noDiffers.symm]

theorem splitFirst?_differs_of_equals (noEquals : '=' ∉ name) (apart : name.getLast? ≠ some '!')
    (single : ¬ ['!', '='] <:+: value) : Text.splitFirst? "!=" (name ++ '=' :: value) = none := by
  rw [Text.splitFirst?_eq_none_iff]
  exact fun within => ((infix_differs_iff noEquals).mp within).elim apart single

theorem splitFirst?_of_noEquals (front : Text) (noEquals : '=' ∉ argument) :
    Text.splitFirst? (front ++ ['=']) argument = none := by
  rw [Text.splitFirst?_eq_none_iff]
  intro within
  exact noEquals (within.subset (by simp))

theorem reading_of_noEquals (noEquals : '=' ∉ argument) :
    reading argument =
      if argument.head? = some '!' then (argument.tail, fun found => !found.any isTrue)
      else (argument, fun found => found.any isTrue) := by
  have noDiffers := splitFirst?_of_noEquals ['!'] noEquals
  have noneEquals := splitFirst?_of_noEquals [] noEquals
  rw [reading]
  simp only [List.cons_append, List.nil_append] at noDiffers noneEquals
  simp [noDiffers, noneEquals]

/-- An argument is the name that is looked up with a comparison behind it, the name with an exclamation
mark in front of it, or the name alone. -/
theorem reading_cases (argument : Text) :
    (∃ value, argument = (reading argument).1 ++ '!' :: '=' :: value) ∨
      (∃ value, argument = (reading argument).1 ++ '=' :: value ∧ ¬ ['!', '='] <:+: argument) ∨
        '=' ∉ argument ∧ (argument = '!' :: (reading argument).1 ∨
          argument = (reading argument).1 ∧ argument.head? ≠ some '!') := by
  rw [reading]
  split
  · rename_i found
    exact .inl ⟨_, Text.splitFirst?_eq_some found⟩
  · rename_i noDiffers found
    exact .inr (.inl ⟨_, Text.splitFirst?_eq_some found, Text.splitFirst?_eq_none_iff.mp noDiffers⟩)
  · rename_i noneEquals
    have noEquals : '=' ∉ argument := by
      intro member
      obtain ⟨before, after, rfl⟩ := List.append_of_mem member
      exact Text.splitFirst?_eq_none_iff.mp noneEquals ⟨before, after, by simp⟩
    refine .inr (.inr ⟨noEquals, ?_⟩)
    split
    · rename_i negates
      obtain ⟨rest, rfl⟩ := List.head?_eq_some_iff.mp negates
      exact .inl rfl
    · rename_i positive
      exact .inr ⟨rfl, positive⟩

/-- The name that is looked up shows whether an argument is plain. -/
theorem isPlain_iff : IsPlain argument ↔ IsFieldName (reading argument).1 := by
  constructor
  · intro plain
    cases plain with
    | given isName =>
        rw [reading_of_noEquals isName.noEquals, if_neg isName.positive]
        exact isName
    | negated isName =>
        rw [reading_of_noEquals (by simpa using isName.noEquals)]
        exact isName
    | equals isName apart single =>
        rw [reading, splitFirst?_differs_of_equals isName.noEquals apart single,
          splitFirst?_equals isName.noEquals]
        exact isName
    | differs isName =>
        rw [reading, splitFirst?_differs isName.noEquals]
        exact isName
  · intro isName
    rcases reading_cases argument with
      ⟨value, whole⟩ | ⟨value, whole, noDiffers⟩ | ⟨-, whole | ⟨whole, -⟩⟩
    · rw [whole]
      exact .differs isName
    · rw [whole, infix_differs_iff isName.noEquals, not_or] at noDiffers
      rw [whole]
      exact .equals isName noDiffers.1 noDiffers.2
    · rw [whole]
      exact .negated isName
    · rw [whole]
      exact .given isName

theorem test_eq_answer (filled : Text.trim argument ≠ []) (context : ContextMap) :
    test context argument = (reading (Text.trim argument)).2
      (context.lookup (Text.trim (reading (Text.trim argument)).1)) := by
  rw [test, if_neg (by simpa using filled), reading]
  cases Text.splitFirst? "!=" (Text.trim argument) with
  | some parts => rfl
  | none =>
      cases Text.splitFirst? "=" (Text.trim argument) with
      | some parts => rfl
      | none =>
          have again := Text.trim_trim argument
          generalize Text.trim argument = trimmed at filled again ⊢
          obtain ⟨c, rest, rfl⟩ := List.exists_cons_of_ne_nil filled
          by_cases negates : c = '!'
          · subst negates
            rfl
          · simp [negates, again]

/-- Every answer depends on what is found. -/
theorem exists_answer_ne (argument : Text) :
    ∃ value, (reading argument).2 (some value) ≠ (reading argument).2 none := by
  have differing (expected : Text) : ∃ value,
      Text.sameLower (Text.trim value) (Text.trim expected) ≠
        Text.sameLower (Text.trim []) (Text.trim expected) := by
    cases isExpected : Text.trim expected with
    | nil => exact ⟨"x", by decide⟩
    | cons c rest =>
        refine ⟨expected, ?_⟩
        have noSame : Text.sameLower (Text.trim []) (c :: rest) = false := Text.sameLower_nil_cons c rest
        rw [isExpected, noSame, Text.sameLower, beq_self_eq_true]
        decide
  rw [reading]
  split
  · rename_i expected _
    obtain ⟨value, differs⟩ := differing expected
    exact ⟨value, by simpa using differs⟩
  · rename_i expected _ _
    exact differing expected
  · refine ⟨"x", ?_⟩
    split
    · dsimp only
      decide
    · dsimp only
      decide

/-! ### The name of the tag -/

theorem beforeComparison_cons (c : Char) (rest : Text) :
    beforeComparison (c :: rest) =
      if c = '=' ∨ c = '!' ∧ rest.head? = some '=' then [] else c :: beforeComparison rest := by
  by_cases isEquals : c = '='
  · subst isEquals
    rfl
  · cases rest with
    | nil => simp [beforeComparison, isEquals]
    | cons d rest =>
        by_cases isDiffers : c = '!' ∧ d = '='
        · obtain ⟨rfl, rfl⟩ := isDiffers
          rfl
        · rw [if_neg (by simpa [isEquals] using isDiffers), beforeComparison]
          · exact isEquals
          · rintro rest rfl isNext
            exact isDiffers ⟨rfl, (List.cons.inj isNext).1⟩

/-- A name goes on to the comparison behind it. -/
theorem beforeComparison_append {rest : Text} (noEquals : '=' ∉ name)
    (apart : rest.head? = some '=' → name.getLast? ≠ some '!') (stops : beforeComparison rest = []) :
    beforeComparison (name ++ rest) = name := by
  induction name with
  | nil => exact stops
  | cons c name ih =>
      rw [List.mem_cons, not_or] at noEquals
      have goesOn : ¬ (c = '=' ∨ c = '!' ∧ (name ++ rest).head? = some '=') := by
        rintro (rfl | ⟨rfl, isNext⟩)
        · exact noEquals.1 rfl
        · cases name with
          | nil => exact apart isNext rfl
          | cons d name => exact noEquals.2 (List.mem_of_head? isNext)
      rw [List.cons_append, beforeComparison_cons, if_neg goesOn, ih noEquals.2]
      intro isNext isLast
      have filled : name ≠ [] := List.ne_nil_of_mem (List.mem_of_getLast? isLast)
      exact apart isNext (by rw [List.getLast?_cons_of_ne_nil filled, isLast])

theorem beforeComparison_dropWhile_append {rest : Text} (noEquals : '=' ∉ name)
    (apart : rest.head? = some '=' → name.getLast? ≠ some '!') (stops : beforeComparison rest = [])
    (stopsBehind : beforeComparison (rest.dropWhile (· = '!')) = []) :
    beforeComparison ((name ++ rest).dropWhile (· = '!')) = name.dropWhile (· = '!') := by
  rw [List.dropWhile_append]
  split
  · rename_i onlyMarks
    rw [stopsBehind, List.isEmpty_iff.mp onlyMarks]
  · rename_i filled
    refine beforeComparison_append
      (fun member => noEquals ((List.dropWhile_sublist _).subset member)) ?_ stops
    intro isNext isLast
    have sameLast := List.getLast?_append_of_ne_nil (name.takeWhile (· = '!'))
      fun isNil => filled (List.isEmpty_iff.mpr isNil)
    rw [List.takeWhile_append_dropWhile] at sameLast
    exact apart isNext (sameLast.trans isLast)

/-- Without an `=` in the name that is looked up, the name of the tag differs from it by exclamation
marks only. -/
theorem beforeComparison_dropWhile (noEquals : '=' ∉ (reading argument).1) :
    beforeComparison (argument.dropWhile (· = '!')) = (reading argument).1.dropWhile (· = '!') := by
  have alone (name : Text) (noEquals : '=' ∉ name) :
      beforeComparison (name.dropWhile (· = '!')) = name.dropWhile (· = '!') := by
    have whole : beforeComparison ((name ++ []).dropWhile (· = '!')) = name.dropWhile (· = '!') :=
      beforeComparison_dropWhile_append noEquals nofun rfl rfl
    rwa [List.append_nil] at whole
  have cases := reading_cases argument
  generalize (reading argument).1 = name at noEquals cases ⊢
  rcases cases with ⟨value, rfl⟩ | ⟨value, rfl, noDiffers⟩ | ⟨-, rfl | ⟨rfl, -⟩⟩
  · exact beforeComparison_dropWhile_append noEquals nofun rfl rfl
  · rw [infix_differs_iff noEquals, not_or] at noDiffers
    exact beforeComparison_dropWhile_append noEquals (fun _ => noDiffers.1) rfl rfl
  · exact alone name noEquals
  · exact alone argument noEquals

theorem noEquals_beforeComparison (text : Text) : '=' ∉ beforeComparison text := by
  induction text with
  | nil => exact List.not_mem_nil
  | cons c text ih =>
      rw [beforeComparison_cons]
      split
      · exact List.not_mem_nil
      · rename_i goesOn
        rw [List.mem_cons, not_or]
        exact ⟨fun isEquals => goesOn (.inl isEquals.symm), ih⟩

/-! ### Contexts that agree on the name of the tag -/

theorem areMarks_beq {mark : Char} (ascii : mark.toNat < 0x80) (noLetter : mark.isAlpha = false)
    (notNull : mark ≠ '\x00') : AreMarks (· == mark) := by
  intro c isMark
  rw [beq_iff_eq.mp isMark]
  exact ⟨ascii, noLetter, notNull⟩

/-- The name that is looked up is the name of the tag in plain arguments only. -/
theorem sameLower_iff_isPlain :
    Text.sameLower (Text.trim (reading argument).1)
      (Text.trim (beforeComparison (argument.dropWhile (· = '!')))) = true ↔ IsPlain argument := by
  rw [isPlain_iff]
  by_cases noEquals : '=' ∈ (reading argument).1
  · constructor
    · intro same
      have counts := Text.count_eq_of_sameLower '='
        (areMarks_beq (by decide) (by decide) (by decide)) (by decide) same
      rw [Text.count_trim (by decide), Text.count_trim (by decide),
        List.count_eq_zero.mpr (noEquals_beforeComparison _)] at counts
      exact absurd noEquals (List.count_eq_zero.mp counts)
    · exact fun isName => absurd noEquals isName.noEquals
  · rw [beforeComparison_dropWhile noEquals]
    constructor
    · refine fun same => ⟨noEquals, fun negated => ?_⟩
      have counts := Text.count_eq_of_sameLower '!'
        (areMarks_beq (by decide) (by decide) (by decide)) (by decide) same
      obtain ⟨rest, isName⟩ := List.head?_eq_some_iff.mp negated
      rw [Text.count_trim (by decide), Text.count_trim (by decide), isName, List.count_cons_self,
        List.dropWhile_cons_of_pos (by decide)] at counts
      have fewer := (List.dropWhile_sublist (l := rest) (· = '!')).count_le '!'
      omega
    · intro isName
      have kept : (reading argument).1.dropWhile (· = '!') = (reading argument).1 := by
        have positive := isName.positive
        generalize (reading argument).1 = name at positive
        cases name with
        | nil => rfl
        | cons c name => exact List.dropWhile_cons_of_neg (by simpa using positive)
      rw [kept, Text.sameLower, beq_self_eq_true]

/-- A test reads the field of its tag alone exactly if its argument is plain. -/
theorem reads_field_iff (argument : Text) :
    (∀ first second : ContextMap,
        first.lookup (fieldName argument) = second.lookup (fieldName argument) →
          test first argument = test second argument) ↔ IsPlain (Text.trim argument) := by
  by_cases filled : Text.trim argument = []
  · rw [filled]
    refine ⟨fun _ => .given ⟨nofun, nofun⟩, fun _ first second _ => ?_⟩
    rw [test, test, filled]
    rfl
  · rw [← sameLower_iff_isPlain, ← fieldName]
    constructor
    · intro reads
      by_contra differs
      obtain ⟨value, answers⟩ := exists_answer_ne (Text.trim argument)
      let given : ContextMap := ({} : ContextMap).insert (Text.trim (reading (Text.trim argument)).1) value
      have agree : given.lookup (fieldName argument) = ({} : ContextMap).lookup (fieldName argument) := by
        rw [ContextMap.lookup_insert, if_neg differs]
      have found : given.lookup (Text.trim (reading (Text.trim argument)).1) = some value := by
        rw [ContextMap.lookup_insert, if_pos (by rw [Text.sameLower, beq_self_eq_true])]
      have same := reads given {} agree
      rw [test_eq_answer filled, test_eq_answer filled, found] at same
      exact answers same
    · intro same first second agree
      rw [test_eq_answer filled, test_eq_answer filled]
      rw [Text.sameLower, beq_iff_eq] at same
      rw [ContextMap.lookup, ContextMap.lookup, ← same] at agree
      exact congrArg _ agree

/-! ### Comparisons with a value -/

section Comparison

variable (noNegation : '!' ∉ name) (noEquals : '=' ∉ name)

theorem trim_equals (name value : Text) :
    Text.trim (name ++ '=' :: value) = Text.trimStart name ++ '=' :: Text.trimEnd value := by
  rw [Text.trim, Text.trimStart_append_cons name (by decide), Text.trimEnd_append_cons _ (by decide)]

theorem not_mem_trimStart {c : Char} (lacks : c ∉ name) : c ∉ Text.trimStart name :=
  fun member => lacks ((List.dropWhile_sublist _).subset member)

theorem trim_trimStart (text : Text) : Text.trim (Text.trimStart text) = Text.trim text := by
  rw [Text.trim, Text.trim, Text.trimStart, Text.trimStart, List.dropWhile_idempotent]

theorem trim_trimEnd (text : Text) : Text.trim (Text.trimEnd text) = Text.trim text := by
  have atEnd : Text.isAllBlank (text.rtakeWhile isBlank) = true :=
    List.all_eq_true.mpr fun c member => List.mem_rtakeWhile_imp member
  rw [← Text.trim_append_blanks atEnd, Text.trimEnd_eq_rdropWhile, List.rdropWhile_append_rtakeWhile]

theorem infix_differs_trimEnd_iff : ['!', '='] <:+: Text.trimEnd value ↔ ['!', '='] <:+: value := by
  rw [Text.trimEnd_eq_rdropWhile]
  constructor
  · exact fun within => within.trans (List.rdropWhile_prefix _ _).isInfix
  · rintro ⟨front, behind, rfl⟩
    rw [← Text.trimEnd_eq_rdropWhile]
    have kept := Text.trimEnd_append_cons (front ++ ['!']) (show isBlank '=' = false by decide) behind
    simp only [List.append_assoc, List.cons_append, List.nil_append] at kept ⊢
    rw [kept]
    exact ⟨front, Text.trimEnd behind, by simp⟩

include noNegation noEquals

theorem isFieldName_trimStart : IsFieldName (Text.trimStart name) where
  noEquals := not_mem_trimStart noEquals
  positive isHead := not_mem_trimStart noNegation (List.mem_of_head? isHead)

theorem fieldName_equals (value : Text) : fieldName (name ++ '=' :: value) = Text.trim name := by
  have free := not_mem_trimStart noNegation
  have kept : (Text.trimStart name).dropWhile (· = '!') = Text.trimStart name := by
    rw [List.dropWhile_eq_self_iff]
    intro filled
    have differs : (Text.trimStart name)[0] ≠ '!' := fun same => free (same ▸ List.getElem_mem filled)
    simpa using differs
  rw [fieldName, trim_equals, beforeComparison_dropWhile_append (not_mem_trimStart noEquals)
    (fun _ isLast => free (List.mem_of_getLast? isLast)) rfl rfl, kept, trim_trimStart]

theorem isPlain_trim_equals_iff :
    IsPlain (Text.trim (name ++ '=' :: value)) ↔ ¬ ['!', '='] <:+: value := by
  have free := not_mem_trimStart noNegation
  have isName := isFieldName_trimStart noNegation noEquals
  rw [trim_equals]
  constructor
  · intro plain within
    rw [← infix_differs_trimEnd_iff] at within
    have isRead := isPlain_iff.mp plain
    have inWhole := (infix_differs_iff isName.noEquals).mpr (.inr within)
    rcases reading_cases (Text.trimStart name ++ '=' :: Text.trimEnd value) with
      ⟨rest, whole⟩ | ⟨rest, -, noDiffers⟩ | ⟨noneEquals, -⟩
    · have split := (List.append_cons ..).symm.trans whole
      have inFront : ∀ c ∈ Text.trimStart name ++ ['='], c ≠ '!' := by
        rintro c member rfl
        rcases List.mem_append.mp member with inName | isEquals
        · exact free inName
        · simp at isEquals
      obtain ⟨between, isWider, -⟩ := Tokenised.exists_of_append_eq inFront split
      exact isRead.noEquals (by rw [isWider]; simp)
    · exact noDiffers inWhole
    · exact noneEquals (by simp)
  · intro single
    exact .equals isName (fun isLast => free (List.mem_of_getLast? isLast))
      (mt infix_differs_trimEnd_iff.mp single)

theorem test_equals (single : ¬ ['!', '='] <:+: value) (context : ContextMap) :
    test context (name ++ '=' :: value) =
      Text.sameLower (Text.trim ((context.lookup (Text.trim name)).getD [])) (Text.trim value) := by
  have free := not_mem_trimStart noNegation
  have isName := not_mem_trimStart noEquals
  rw [test, trim_equals, if_neg (by simp), splitFirst?_differs_of_equals isName
    (fun isLast => free (List.mem_of_getLast? isLast)) (mt infix_differs_trimEnd_iff.mp single)]
  simp only [splitFirst?_equals isName, holds, trim_trimStart, trim_trimEnd]

/-- A comparison with a value goes by the trimmed texts exactly if the value holds no `!=`. -/
theorem test_equals_iff (value : Text) :
    (∀ context : ContextMap, test context (name ++ '=' :: value) =
        Text.sameLower (Text.trim ((context.lookup (Text.trim name)).getD [])) (Text.trim value)) ↔
      ¬ ['!', '='] <:+: value := by
  constructor
  · intro tests
    rw [← isPlain_trim_equals_iff noNegation noEquals, ← reads_field_iff]
    intro first second agree
    rw [fieldName_equals noNegation noEquals] at agree
    rw [tests, tests, agree]
  · exact test_equals noNegation noEquals

end Comparison

/-- A test reads the field of its tag alone exactly if the name stands in front of the first comparison,
with no exclamation mark in front of it but that of a negation.  A comparison with a value then goes by
the trimmed texts exactly if no `!=` stands in the value. -/
theorem test_reads_field_iff (argument : Text) :
    ((∀ first second : ContextMap,
      first.lookup (fieldName argument) = second.lookup (fieldName argument) →
        test first argument = test second argument) ↔ IsPlain (Text.trim argument)) ∧
    ∀ name value : Text, argument = name ++ '=' :: value → '!' ∉ name → '=' ∉ name →
      ((∀ context : ContextMap, test context argument =
        Text.sameLower (Text.trim ((context.lookup (Text.trim name)).getD [])) (Text.trim value)) ↔
      ¬ ['!', '='] <:+: value) := by
  refine ⟨reads_field_iff argument, ?_⟩
  rintro name value rfl noNegation noEquals
  exact test_equals_iff noNegation noEquals value

/-- A test that is met although the field has another text: the value is cut at its `!=`, and what stands
in front of that is taken for the name. -/
theorem not_reads_field_alone :
    ¬ ((∀ (argument : Text) (first second : ContextMap),
        first.lookup (fieldName argument) = second.lookup (fieldName argument) →
          test first argument = test second argument) ∧
      ∀ name value : Text, '!' ∉ name → '=' ∉ name → ∀ context : ContextMap,
        test context (name ++ '=' :: value) =
          Text.sameLower (Text.trim ((context.lookup (fieldName (name ++ '=' :: value))).getD []))
            (Text.trim value)) := by
  rintro ⟨-, compares⟩
  have met := compares "Status" "a!=b" (by decide) (by decide)
    (({} : ContextMap).insert "Status" "open")
  exact absurd met (by decide +kernel)

/-- The two forms of a comparison, with marks of the other form in the value. -/
theorem test_reads_field_iff_status :
    IsPlain (Text.trim " Status != a=b ") ∧ ¬ IsPlain (Text.trim "Status=a!=b") ∧
      (∀ first second : ContextMap,
        first.lookup (fieldName " Status != a=b ") = second.lookup (fieldName " Status != a=b ") →
          test first " Status != a=b " = test second " Status != a=b ") ∧
      (∀ context : ContextMap, test context ("Status" ++ '=' :: "a=!b".toList) =
        Text.sameLower (Text.trim ((context.lookup (Text.trim "Status")).getD [])) (Text.trim "a=!b")) ∧
      test (({} : ContextMap).insert "Status" "A=!B") ("Status" ++ '=' :: "a=!b".toList) = true := by
  have isName : IsFieldName "Status " := ⟨by decide, by decide⟩
  have plain : IsPlain (Text.trim " Status != a=b ") := @IsPlain.differs "Status " " a=b" isName
  have notPlain : ¬ IsPlain (Text.trim "Status=a!=b") := by
    rw [isPlain_iff]
    exact fun isName => absurd isName.noEquals (by decide +kernel)
  exact ⟨plain, notPlain, (test_reads_field_iff " Status != a=b ").1.mpr plain,
    ((test_reads_field_iff "Status=a=!b").2 "Status" "a=!b" rfl (by decide) (by decide)).mpr (by decide),
    by decide +kernel⟩

end Covenant.Conditional
