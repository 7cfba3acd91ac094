import Covenant.Value.Reader
import Mathlib.Data.List.TakeDrop

/-!
# JSON without objects

An object in JSON begins with a brace.  Reading goes through a text from the front and leaves a
rest of it, so the items of a list that is read from a text without opening braces are no objects.
-/

namespace Covenant.JsonReader

variable {text rest : Text} {value : Value}

theorem skipSpace_suffix (text : Text) : skipSpace text <:+ text := List.dropWhile_suffix _

/-- A text behind another one that is read first. -/
def ReadsOn {α : Type} (result : Result (α × Text)) (text : Text) : Prop :=
  ∀ read rest, result = .ok (read, rest) → rest <:+ text

theorem ReadsOn.map {α β : Type} {result : Result (α × Text)} {f : α → β}
    (readsOn : ReadsOn result text) :
    ReadsOn (result.map fun (read, rest) => (f read, rest)) text := by
  intro read rest isRead
  cases result with
  | error e => cases isRead
  | ok pair =>
      cases isRead
      exact readsOn pair.1 pair.2 rfl

theorem ReadsOn.behind {α : Type} {result : Result (α × Text)} {other : Text}
    (readsOn : ReadsOn result text) (suffix : text <:+ other) : ReadsOn result other :=
  fun read rest isRead => (readsOn read rest isRead).trans suffix

theorem readsOn_readString (opening skip : Nat) (text : Text) :
    ReadsOn (readString opening skip text) text := by
  induction text generalizing skip with
  | nil => cases skip <;> nofun
  | cons c text ih =>
      have behind (skip : Nat) : ReadsOn (readString opening skip text) (c :: text) :=
        (ih skip).behind (List.suffix_cons c text)
      cases skip with
      | succ skip => exact behind skip
      | zero =>
          rw [readString]
          split
          · rintro read rest ⟨⟩
            exact List.suffix_cons c _
          · split
            · split
              · nofun
              · exact (behind _).map
            · split
              · nofun
              · exact (behind 0).map

theorem spanDigits_suffix (text : Text) : (text.span isAsciiDigit).2 <:+ text := by
  rw [List.span_eq_takeWhile_dropWhile]
  exact List.dropWhile_suffix _

theorem spanWhole_suffix (text : Text) : (spanWhole text).2 <:+ text := by
  unfold spanWhole
  split
  · exact List.suffix_cons _ _
  · exact spanDigits_suffix text

theorem spanFraction_suffix (text : Text) : (spanFraction text).2 <:+ text := by
  unfold spanFraction
  split
  · dsimp only
    split
    · exact List.suffix_refl _
    · exact (spanDigits_suffix _).trans (List.suffix_cons _ _)
  · exact List.suffix_refl _

theorem spanExponent_suffix (text : Text) : (spanExponent text).2 <:+ text := by
  unfold spanExponent
  split
  · split
    · dsimp only
      split
      · exact List.suffix_refl _
      · exact (spanDigits_suffix _).trans ((List.drop_suffix _ _).trans (List.suffix_cons _ _))
    · exact List.suffix_refl _
  · exact List.suffix_refl _

/-- A value without parts. -/
def IsScalar : Value → Prop
  | .list _ | .object _ => False
  | _ => True

theorem readNumber_eq_ok (reads : readNumber text = .ok (value, rest)) :
    IsScalar value ∧ rest <:+ text := by
  unfold readNumber at reads
  split at reads
  rename_i sign unsigned isSigned
  split at reads
  rename_i whole afterWhole isWhole
  split at reads
  rename_i fraction afterFraction isFraction
  split at reads
  rename_i exponent behind isExponent
  have suffix : behind <:+ text := by
    have signSuffix : unsigned <:+ text := by
      split at isSigned
      · obtain ⟨-, rfl⟩ := Prod.mk.inj isSigned
        exact List.suffix_cons _ _
      · obtain ⟨-, rfl⟩ := Prod.mk.inj isSigned
        exact List.suffix_refl _
    have wholeSuffix := spanWhole_suffix unsigned
    have fractionSuffix := spanFraction_suffix afterWhole
    have exponentSuffix := spanExponent_suffix afterFraction
    rw [isWhole] at wholeSuffix
    rw [isFraction] at fractionSuffix
    rw [isExponent] at exponentSuffix
    exact exponentSuffix.trans (fractionSuffix.trans (wholeSuffix.trans signSuffix))
  split at reads
  · cases reads
  · split at reads
    · split at reads
      · cases reads
        exact ⟨trivial, suffix⟩
      · cases reads
      · cases reads
    · split at reads
      · cases reads
        exact ⟨trivial, suffix⟩
      · cases reads

theorem isScalar_namedValues : ∀ pair ∈ namedValues, IsScalar pair.2 := by
  intro pair member
  simp only [namedValues, List.mem_cons, List.not_mem_nil, or_false] at member
  rcases member with rfl | rfl | rfl | rfl | rfl | rfl <;> trivial

theorem readScalar_eq_ok (reads : readScalar text = .ok (value, rest)) :
    IsScalar value ∧ rest <:+ text := by
  rw [readScalar] at reads
  split at reads
  · rename_i name named found
    cases reads
    exact ⟨isScalar_namedValues _ (List.mem_of_find?_eq_some found), List.drop_suffix _ _⟩
  · exact readNumber_eq_ok reads

/-! ### Lists -/

/-- No object, and no list with an object among its items. -/
def HoldsNoRecord : Value → Prop
  | .object _ => False
  | .list items => ∀ members, .object members ∉ items
  | _ => True

theorem IsScalar.holdsNoRecord (isScalar : IsScalar value) : HoldsNoRecord value := by
  cases value with
  | list items => exact isScalar.elim
  | object members => exact isScalar.elim
  | _ => trivial

theorem not_mem_of_suffix {c : Char} (suffix : rest <:+ text) (free : c ∉ text) : c ∉ rest :=
  fun member => free (suffix.subset member)

mutual

/-- Without an opening brace a value holds no record, and none stands behind it. -/
theorem readValue_eq_ok (fuel : Nat) {text rest : Text} {value : Value} (free : '{' ∉ text)
    (reads : readValue fuel text = .ok (value, rest)) :
    (∀ members, value ≠ .object members) ∧ HoldsNoRecord value ∧ rest <:+ text := by
  cases fuel with
  | zero => cases reads
  | succ fuel =>
      unfold readValue at reads
      split at reads
      · rename_i behind
        cases isString : readString ('"' :: behind).length 0 behind with
        | error e =>
            rw [isString] at reads
            cases reads
        | ok pair =>
            rw [isString] at reads
            cases reads
            exact ⟨nofun, trivial, (readsOn_readString _ 0 behind _ _ isString).trans
              (List.suffix_cons _ _)⟩
      · exact absurd List.mem_cons_self free
      · rename_i behind
        have suffix := (skipSpace_suffix behind).trans (List.suffix_cons '[' behind)
        split at reads
        · rename_i after isEnd
          cases reads
          rw [isEnd] at suffix
          exact ⟨nofun, by simp [HoldsNoRecord], (List.suffix_cons _ _).trans suffix⟩
        · obtain ⟨items, rfl, noRecords, isRest⟩ :=
            readItems_eq_ok fuel (not_mem_of_suffix suffix free) (by simp) reads
          exact ⟨nofun, noRecords, isRest.trans suffix⟩
      · obtain ⟨isScalar, suffix⟩ := readScalar_eq_ok reads
        refine ⟨?_, isScalar.holdsNoRecord, suffix⟩
        rintro members rfl
        exact isScalar

theorem readItems_eq_ok (fuel : Nat) {items : List Value} {text rest : Text} {value : Value}
    (free : '{' ∉ text) (noRecords : ∀ members, .object members ∉ items)
    (reads : readItems fuel items text = .ok (value, rest)) :
    ∃ read, value = .list read ∧ (∀ members, .object members ∉ read) ∧ rest <:+ text := by
  cases fuel with
  | zero => cases reads
  | succ fuel =>
      unfold readItems at reads
      split at reads
      · cases reads
      · rename_i item behind isItem
        obtain ⟨noObject, -, suffix⟩ := readValue_eq_ok fuel free isItem
        have more : ∀ members, .object members ∉ item :: items := by
          intro members member
          rcases List.mem_cons.mp member with same | member
          · exact noObject members same.symm
          · exact noRecords members member
        have afterSpace := (skipSpace_suffix behind).trans suffix
        split at reads
        · rename_i after isEnd
          cases reads
          rw [isEnd] at afterSpace
          exact ⟨_, rfl, fun members member => more members (List.mem_reverse.mp member),
            (List.suffix_cons _ _).trans afterSpace⟩
        · rename_i next isComma
          rw [isComma] at afterSpace
          have nextSuffix := (skipSpace_suffix next).trans ((List.suffix_cons _ _).trans afterSpace)
          obtain ⟨read, isList, noneRead, isRest⟩ :=
            readItems_eq_ok fuel (not_mem_of_suffix nextSuffix free) more reads
          exact ⟨read, isList, noneRead, isRest.trans nextSuffix⟩
        · cases reads

end

/-- A list in JSON without an opening brace has no objects among its items. -/
theorem holdsNoRecord_ofJson (free : '{' ∉ text) (reads : Value.ofJson text = .ok value) :
    HoldsNoRecord value := by
  rw [Value.ofJson] at reads
  split at reads
  · cases reads
  · split at reads
    · cases reads
    · rename_i found behind isRead
      have start := not_mem_of_suffix (skipSpace_suffix text) free
      split at reads
      · cases reads
        exact (readValue_eq_ok _ start isRead).2.1
      · cases reads

end Covenant.JsonReader
