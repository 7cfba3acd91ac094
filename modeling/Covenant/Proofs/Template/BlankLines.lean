import Covenant.Proofs.Template.Part
import Covenant.Proofs.Template.Placed
import Covenant.Template.BlankLines

/-!
# Blank lines and long runs

A run of line breaks ends at any other character.  So long runs can be exchanged on both sides of
such a character one after the other, and what stands between two of them is changed or kept
whatever is around it.
-/

namespace Covenant

/-- Tokens end before a character that neither begins one nor is inside one. -/
theorem Piece.cutAfter_append_cons {α : Type} {recognise : Recogniser α}
    (ignores : IgnoresBefore recognise) {c : Char}
    (begins : ∀ rest, recognise none (c :: rest) = none)
    (stops : ∀ text rest, recognise none (text ++ c :: rest) = recognise none text)
    (within : ∀ text found length, recognise none text = some (found, length) → length ≤ text.length)
    (before : Option Char) (skip : Nat) (text rest : Text) (inside : skip ≤ text.length) :
    cutAfter recognise before skip (text ++ c :: rest) =
      cutAfter recognise before skip text ++ plain c :: cut recognise rest := by
  rw [cutAfter_append ignores (fun text _ => stops text rest) within before skip inside,
    cut_of_unrecognised ignores (begins rest)]

namespace BlankLines

theorem run_cons_of_noBreak {c : Char} (noBreak : isLineBreak c = false) (rest : Text) :
    run (c :: rest) = (0, 0) := by
  simp only [isLineBreak, Bool.or_eq_false_iff, decide_eq_false_iff_not] at noBreak
  obtain ⟨noReturn, noFeed⟩ := noBreak
  unfold run
  split
  · simp_all
  · simp_all
  · rfl

theorem run_append_cons {c : Char} (noBreak : isLineBreak c = false) (text rest : Text) :
    run (text ++ c :: rest) = run text := by
  have noFeed : c ≠ '\n' := by
    rintro rfl
    exact absurd noBreak (by decide)
  have noReturn : c ≠ '\r' := by
    rintro rfl
    exact absurd noBreak (by decide)
  fun_induction run text with
  | case1 text breaks length same ih =>
      rw [List.cons_append, run, ih, same]
  | case2 text breaks length same ih =>
      rw [List.cons_append, List.cons_append, run, ih, same]
  | case3 text notFeed notReturnFeed =>
      unfold run
      split
      · rename_i later begins
        cases text with
        | nil => simp_all
        | cons d text => simp_all
      · rename_i later begins
        match text with
        | [] => simp_all
        | [d] => simp_all
        | d :: e :: text => simp_all
      · rfl

theorem length_run_le (text : Text) : (run text).2 ≤ text.length := by
  fun_induction run text with
  | case1 text breaks length same ih =>
      rw [same] at ih
      simpa using ih
  | case2 text breaks length same ih =>
      rw [same] at ih
      simpa using ih
  | case3 text notFeed notReturnFeed => exact Nat.zero_le _

theorem collapse_append_cons {c : Char} (noBreak : isLineBreak c = false) (text rest : Text) :
    collapse (text ++ c :: rest) = collapse text ++ c :: collapse rest := by
  have begins (after : Text) : recognise none (c :: after) = none := by
    simp [recognise, run_cons_of_noBreak noBreak]
  have stops (before after : Text) : recognise none (before ++ c :: after) = recognise none before := by
    simp only [recognise, run_append_cons noBreak]
  have within (token : Text) (found : Unit) (length : Nat)
      (recognised : recognise none token = some (found, length)) : length ≤ token.length := by
    have bound := length_run_le token
    simp only [recognise, Option.ite_none_right_eq_some, Option.some.injEq, Prod.mk.injEq] at recognised
    omega
  have ignores : IgnoresBefore recognise := fun _ _ _ => rfl
  have cut := Piece.cutAfter_append_cons ignores begins stops within none 0 text rest (Nat.zero_le _)
  simp only [collapse, Piece.cut] at cut ⊢
  rw [cut]
  simp [Piece.substitute]

/-- What stands between two characters that are no line breaks is changed or kept whatever is
around it. -/
theorem collapse_append_enclosed {c d : Char} (noBreak : isLineBreak c = false)
    (lastNoBreak : isLineBreak d = false) (before middle after : Text) :
    collapse (before ++ (c :: (middle ++ [d]) ++ after)) =
      collapse before ++ (collapse (c :: (middle ++ [d])) ++ collapse after) := by
  have whole : before ++ (c :: (middle ++ [d]) ++ after) =
      before ++ c :: (middle ++ d :: after) := by
    simp
  have alone := collapse_append_cons noBreak [] (middle ++ [d])
  rw [List.nil_append, collapse_append_cons lastNoBreak] at alone
  rw [whole, collapse_append_cons noBreak, collapse_append_cons lastNoBreak, alone]
  simp [collapse, Piece.cut, Piece.cutAfter, Piece.substitute]

end BlankLines

end Covenant

/-!
## Long runs of line breaks

Collapsing changes a text exactly when three line breaks stand in a row somewhere: a run that is
exchanged has three characters at least, and the blank line for it has two.
-/

namespace Covenant

namespace Piece

variable {α : Type} {recognise : Recogniser α}

def isToken : Piece α → Bool
  | plain _ => false
  | token _ _ => true

/-- Every token that is exchanged for something shorter takes a character off at least. -/
theorem length_substitute_le {exchange : α → Text → Text} {pieces : List (Piece α)}
    (shorter : ∀ found source, token found source ∈ pieces → (exchange found source).length < source.length) :
    (substitute exchange pieces).length + pieces.countP isToken ≤ (pieces.flatMap source).length := by
  induction pieces with
  | nil => exact Nat.le_refl _
  | cons piece pieces ih =>
      have later := ih fun found source member => shorter found source (List.mem_cons_of_mem piece member)
      cases piece with
      | plain c =>
          simp only [substitute, List.flatMap_cons, List.length_append, source, List.countP_cons, isToken,
            Bool.false_eq_true, if_false] at later ⊢
          omega
      | token found written =>
          have own := shorter found written List.mem_cons_self
          simp only [substitute, List.flatMap_cons, List.length_append, source, List.countP_cons, isToken,
            if_true] at later ⊢
          omega

end Piece

namespace BlankLines

variable {text : Text}

/-! ### Runs -/

/-- A line break is a line feed, or a carriage return with a line feed. -/
def IsBreak (text : Text) : Prop := text = "\n" ∨ text = "\r\n"

/-- Three or more line breaks in a row. -/
def HasLongRun (text : Text) : Prop :=
  ∃ (before : Text) (breaks : List Text) (after : Text), text = before ++ (breaks.flatten ++ after) ∧
    3 ≤ breaks.length ∧ ∀ one ∈ breaks, IsBreak one

theorem run_break_append {one : Text} (isBreak : IsBreak one) (rest : Text) :
    run (one ++ rest) = ((run rest).1 + 1, (run rest).2 + one.length) := by
  rcases isBreak with rfl | rfl <;> rfl

theorem le_run_flatten_append {breaks : List Text} (areBreaks : ∀ one ∈ breaks, IsBreak one)
    (after : Text) : breaks.length ≤ (run (breaks.flatten ++ after)).1 := by
  induction breaks with
  | nil => exact Nat.zero_le _
  | cons one breaks ih =>
      obtain ⟨own, others⟩ := List.forall_mem_cons.mp areBreaks
      rw [List.flatten_cons, List.append_assoc, run_break_append own]
      exact Nat.succ_le_succ (ih others)

/-- The line breaks at the start of a text are those of its run. -/
theorem exists_breaks (text : Text) :
    ∃ (breaks : List Text) (after : Text), text = breaks.flatten ++ after ∧
      breaks.length = (run text).1 ∧ ∀ one ∈ breaks, IsBreak one := by
  fun_induction run text with
  | case1 rest breaks length same ih =>
      obtain ⟨ones, after, isRest, counted, areBreaks⟩ := ih
      rw [same] at counted
      exact ⟨['\n'] :: ones, after, congrArg ('\n' :: ·) isRest, congrArg (· + 1) counted,
        List.forall_mem_cons.mpr ⟨.inl rfl, areBreaks⟩⟩
  | case2 rest breaks length same ih =>
      obtain ⟨ones, after, isRest, counted, areBreaks⟩ := ih
      rw [same] at counted
      exact ⟨['\r', '\n'] :: ones, after, congrArg ('\r' :: '\n' :: ·) isRest, congrArg (· + 1) counted,
        List.forall_mem_cons.mpr ⟨.inr rfl, areBreaks⟩⟩
  | case3 text notFeed notReturnFeed => exact ⟨[], text, rfl, rfl, nofun⟩

/-- A run has a character at least for each of its line breaks. -/
theorem run_breaks_le (text : Text) : (run text).1 ≤ (run text).2 := by
  fun_induction run text with
  | case1 rest breaks length same ih =>
      rw [same] at ih
      exact Nat.succ_le_succ ih
  | case2 rest breaks length same ih =>
      rw [same] at ih
      exact Nat.le_succ_of_le (Nat.succ_le_succ ih)
  | case3 text notFeed notReturnFeed => exact Nat.le_refl _

/-- There is a long run exactly when one begins somewhere. -/
theorem hasLongRun_iff : HasLongRun text ↔ ∃ rest, rest <:+ text ∧ 3 ≤ (run rest).1 := by
  constructor
  · rintro ⟨before, breaks, after, rfl, long, areBreaks⟩
    exact ⟨_, List.suffix_append _ _, Nat.le_trans long (le_run_flatten_append areBreaks after)⟩
  · rintro ⟨rest, ⟨before, rfl⟩, long⟩
    obtain ⟨breaks, after, isRest, counted, areBreaks⟩ := exists_breaks rest
    exact ⟨before, breaks, after, by rw [← isRest], counted ▸ long, areBreaks⟩

/-! ### What collapsing changes -/

theorem recognise_eq_none_iff {before : Option Char} : recognise before text = none ↔ (run text).1 < 3 := by
  simp [recognise]

/-- What is exchanged are three characters at least. -/
theorem three_le_of_recognise {before : Option Char} {found : Unit} {length : Nat}
    (recognised : recognise before text = some (found, length)) : 3 ≤ length ∧ length ≤ text.length := by
  simp only [recognise, Option.ite_none_right_eq_some, Option.some.injEq, Prod.mk.injEq] at recognised
  obtain ⟨long, -, rfl⟩ := recognised
  exact ⟨Nat.le_trans long (run_breaks_le text), length_run_le text⟩

theorem length_collapse_le (text : Text) :
    (collapse text).length + (Piece.cut recognise text).countP Piece.isToken ≤ text.length := by
  have shorter (found : Unit) (source : Text) (member : .token found source ∈ Piece.cut recognise text) :
      ("\n\n" : Text).length < source.length := by
    obtain ⟨place, rest, length, recognised, rfl⟩ := Piece.exists_recognised_of_mem none 0 text member
    obtain ⟨long, within⟩ := three_le_of_recognise recognised
    rw [List.length_take_of_le within]
    exact long
  have bound := Piece.length_substitute_le shorter
  rwa [Piece.flatMap_source_cut] at bound

/-- A text without tokens has no place at which one begins. -/
theorem run_lt_of_no_token {before : Option Char}
    (noToken : ∀ piece ∈ Piece.cutAfter recognise before 0 text, piece.isToken = false) :
    ∀ rest, rest <:+ text → (run rest).1 < 3 := by
  induction text generalizing before with
  | nil =>
      intro rest isEnd
      rw [List.suffix_nil.mp isEnd]
      decide
  | cons c text ih =>
      have unrecognised : recognise before (c :: text) = none := by
        by_contra recognised
        obtain ⟨⟨found, length⟩, recognised⟩ := Option.ne_none_iff_exists'.mp recognised
        obtain ⟨length, rfl⟩ : ∃ fewer, length = fewer + 1 :=
          ⟨length - 1, by have := (three_le_of_recognise recognised).1; omega⟩
        rw [Piece.cutAfter, recognised] at noToken
        exact absurd (noToken _ List.mem_cons_self) (by simp [Piece.isToken])
      rw [Piece.cutAfter, unrecognised] at noToken
      intro rest isEnd
      rcases List.suffix_cons_iff.mp isEnd with rfl | later
      · exact recognise_eq_none_iff.mp unrecognised
      · exact ih (List.forall_mem_cons.mp noToken).2 rest later

theorem collapse_of_short (short : ∀ rest, rest <:+ text → (run rest).1 < 3) : collapse text = text := by
  induction text with
  | nil => rfl
  | cons c text ih =>
      have later := ih fun rest isEnd => short rest (isEnd.trans (List.suffix_cons c text))
      have unrecognised := @recognise_eq_none_iff _ none |>.mpr (short _ (List.suffix_refl _))
      rw [collapse, Piece.cut_of_unrecognised (fun _ _ _ => rfl) unrecognised]
      exact congrArg (c :: ·) later

/-- **Collapsing changes the texts with a long run of line breaks, and no others.** -/
theorem collapse_eq_self_iff : collapse text = text ↔ ¬ HasLongRun text := by
  simp only [hasLongRun_iff, not_exists, not_and, Nat.not_le]
  constructor
  · intro same
    have bound := length_collapse_le text
    have noToken : (Piece.cut recognise text).countP Piece.isToken = 0 := by
      rw [same] at bound
      omega
    refine @run_lt_of_no_token text none fun piece member => ?_
    simpa using List.countP_eq_zero.mp noToken piece member
  · exact collapse_of_short

end BlankLines

end Covenant
