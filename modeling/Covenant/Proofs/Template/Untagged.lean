import Covenant.Proofs.Template.BlankLines
import Covenant.Proofs.Template.ConditionalTrace
import Covenant.Proofs.Template.Standing
import Covenant.Proofs.Template.TokenTags

/-!
# Texts without tags

A text in which no two brackets open in a row holds no tag, so the passes over blocks would leave it as
it is, but for its long runs of line breaks.  They do not look at such a text at all.  So its long runs
collapse only if something in double brackets, however unrelated, stands beside them.
-/

namespace Covenant

/-! ### Where there is no tag -/

namespace BlockMarkup

/-- Tags stand in double brackets, and each can be told by itself. -/
def HasBracketedTags (markup : BlockMarkup) : Prop :=
  ∀ {before : Option Char} {text : Text} {form : TagForm} {length : Nat},
    markup.recognise before text = some (form, length) →
      ∃ source rest, text = source ++ rest ∧ length = source.length ∧ IsBracketed source ∧
        markup.recognise none source = some (form, length)

variable {markup : BlockMarkup} {text token : Text}

theorem exists_around_of_mem_tags (bracketed : markup.HasBracketedTags) {tag : Tag}
    (member : tag ∈ markup.tags text) :
    (∃ front rest, text = front ++ (tag.source ++ rest)) ∧ IsBracketed tag.source ∧
      markup.recognise none tag.source ≠ none := by
  obtain ⟨front, rest, whole, -⟩ := (markup.standsIn_tags text).2 tag member
  obtain ⟨form, place, after, length, recognised, isSource⟩ := exists_recognised_of_mem_tags member
  obtain ⟨source, behind, rfl, rfl, isBracketed, alone⟩ := bracketed recognised
  rw [List.take_left] at isSource
  rw [isSource] at whole ⊢
  exact ⟨⟨front, rest, whole⟩, isBracketed, by simp [alone]⟩

theorem tags_of_untagged (bracketed : markup.HasBracketedTags) (untagged : mayHoldTags text = false) :
    markup.tags text = [] := by
  refine List.eq_nil_iff_forall_not_mem.mpr fun tag member => ?_
  obtain ⟨⟨front, rest, rfl⟩, ⟨body, -, isSource⟩, -⟩ := exists_around_of_mem_tags bracketed member
  have mayHold := mayHoldTags_append front (body ++ ']' :: ']' :: rest)
  simp [isSource, mayHold] at untagged

theorem reduce_of_no_tags {m : Type → Type} [Monad m] (render : Text → Text → m Text) (passes : Nat)
    (problems : List Text) (noTags : markup.tags text = []) :
    markup.reduce render passes problems text = pure ⟨text, problems, true⟩ := by
  have scanned : markup.scan text = ⟨[], []⟩ := by
    rw [scan, noTags]
    rfl
  rw [reduce.eq_def]
  simp only [scanned, List.isEmpty_nil, if_true]
  rfl

end BlockMarkup

theorem Conditional.hasBracketedTags : Conditional.markup.HasBracketedTags := by
  intro before text form length recognised
  obtain ⟨source, rest, isTag, rfl, rfl⟩ := (@Conditional.recognise_eq_some_iff before _ _ _).mp recognised
  refine ⟨source, rest, rfl, rfl, Conditional.isBracketed_of_tagText isTag, ?_⟩
  exact (@Conditional.recognise_eq_some_iff none source form source.length).mpr
    ⟨source, [], isTag, (List.append_nil source).symm, rfl⟩

theorem Loop.hasBracketedTags : Loop.markup.HasBracketedTags := by
  intro before text form length recognised
  obtain ⟨source, rest, isTag, rfl, rfl⟩ := Loop.recognise_eq_some_iff.mp recognised
  refine ⟨source, rest, rfl, rfl, Loop.isBracketed_of_tagText isTag, ?_⟩
  exact Loop.recognise_eq_some_iff.mpr ⟨source, [], isTag, (List.append_nil source).symm, rfl⟩

/-! ### A token among other text -/

/-- Something in double brackets that is no tag of a block. -/
structure IsUnrelated (token : Text) : Prop where
  bracketed : IsBracketed token
  noCondition : Conditional.recognise none token = none
  noLoop : Loop.recognise none token = none

namespace IsBracketed

variable {text token source front rest : Text}

theorem count_opening (bracketed : IsBracketed token) : token.count '[' = 2 := by
  obtain ⟨body, free, rfl⟩ := bracketed
  have none : body.count '[' = 0 := List.count_eq_zero.mpr fun member => absurd (free '[' member) (by decide)
  simp [none]

/-- No third bracket opens behind the two that a text in brackets begins with. -/
theorem ne_opening_cons (bracketed : IsBracketed token) (behind : Text) :
    token ++ rest ≠ '[' :: '[' :: '[' :: behind := by
  obtain ⟨body, free, rfl⟩ := bracketed
  intro same
  cases body with
  | nil => simp at same
  | cons c body =>
      have third : c = '[' := by
        simp only [List.cons_append, List.cons.injEq, true_and] at same
        exact same.1
      exact absurd (free c List.mem_cons_self) (by simp [third, isBracket])

theorem exists_cons (bracketed : IsBracketed token) : ∃ behind, token = '[' :: '[' :: behind := by
  obtain ⟨body, -, rfl⟩ := bracketed
  exact ⟨_, rfl⟩

/-- Behind text in which no two brackets open, a token is all that stands in double brackets. -/
theorem eq_of_append (bracketed : IsBracketed token) (isSource : IsBracketed source)
    (untagged : mayHoldTags text = false) (whole : text ++ token = front ++ (source ++ rest)) :
    source = token := by
  obtain ⟨behind, begins⟩ := bracketed.exists_cons
  obtain ⟨inSource, sourceBegins⟩ := isSource.exists_cons
  induction text generalizing front with
  | nil =>
      cases front with
      | nil =>
          have same : source ++ rest = token ++ [] := by simpa using whole.symm
          exact (isSource.append_inj bracketed same).1
      | cons c front =>
          -- the token would hold three opening brackets
          have counted := congrArg (List.count '[') whole
          rw [begins] at whole
          obtain rfl : '[' = c := (List.cons.inj whole).1
          rw [List.nil_append, bracketed.count_opening, List.count_append, List.count_cons_self,
            List.count_append, isSource.count_opening] at counted
          omega
  | cons c text ih =>
      have later : mayHoldTags text = false := by
        simp only [mayHoldTags, Text.hasInfix, Bool.or_eq_false_iff] at untagged
        exact untagged.2
      cases front with
      | cons d front => exact ih later (List.cons.inj whole).2
      | nil =>
          cases text with
          | nil =>
              rw [sourceBegins] at whole
              obtain rfl : c = '[' := (List.cons.inj whole).1
              rw [← sourceBegins, begins] at whole
              exact absurd whole.symm (isSource.ne_opening_cons behind)
          | cons d text =>
              rw [sourceBegins] at whole
              simp only [List.cons_append, List.nil_append, List.cons.injEq] at whole
              obtain ⟨rfl, rfl, -⟩ := whole
              have mayHold := mayHoldTags_append [] text
              rw [List.nil_append, untagged] at mayHold
              cases mayHold

end IsBracketed

variable {text token : Text}

theorem BlockMarkup.tags_append_unrelated {markup : BlockMarkup} (bracketed : markup.HasBracketedTags)
    (untagged : mayHoldTags text = false) (isToken : IsBracketed token)
    (noTag : markup.recognise none token = none) : markup.tags (text ++ token) = [] := by
  refine List.eq_nil_iff_forall_not_mem.mpr fun tag member => ?_
  obtain ⟨⟨front, rest, whole⟩, isSource, recognised⟩ := exists_around_of_mem_tags bracketed member
  rw [isToken.eq_of_append isSource untagged whole] at recognised
  exact recognised noTag

theorem IsBracketed.mayHoldTags_append (isToken : IsBracketed token) (text : Text) :
    mayHoldTags (text ++ token) = true := by
  obtain ⟨behind, rfl⟩ := isToken.exists_cons
  exact Covenant.mayHoldTags_append text behind

/-! ### The passes -/

namespace Conditional

/-- The passes over the conditional blocks of a text. -/
def reduction (context : ContextMap) (passes : Int) (text : Text) : Reduced :=
  Id.run (markup.reduce (fun argument inner => pure (render context argument inner)) passes.toNat [] text)

/-- Stripping a text that is searched for blocks, whether or not brackets open in it. -/
def stripSearched (context : ContextMap) (passes : Int) (text : Text) : PassResult :=
  let reduced := reduction context passes text
  { text := BlankLines.collapse reduced.text
    problems := if reduced.finished then reduced.problems else reduced.problems ++ [limitMessage passes] }

theorem strip_eq (context : ContextMap) (passes : Int) (text : Text) :
    strip context passes text = if mayHoldTags text then stripSearched context passes text else { text } := rfl

theorem stripSearched_of_no_tags (context : ContextMap) (passes : Int) (noTags : markup.tags text = []) :
    stripSearched context passes text = { text := BlankLines.collapse text } := by
  rw [stripSearched, reduction, BlockMarkup.reduce_of_no_tags _ _ _ noTags]
  rfl

end Conditional

namespace Loop

/-- Expanding a text that is searched for loops, whether or not brackets open in it. -/
def expandSearched (source : Source) (passes : Int) (text : Text) : Outcome PassResult := do
  let reduced ← markup.reduce (render source) passes.toNat [] text
  return {
    text := BlankLines.collapse reduced.text
    problems := if reduced.finished then reduced.problems else reduced.problems ++ [limitMessage passes] }

theorem expand_eq (source : Source) (passes : Int) (text : Text) :
    expand source passes text = if mayHoldTags text then expandSearched source passes text else .ok { text } := rfl

theorem expandSearched_of_no_tags (source : Source) (passes : Int) (noTags : markup.tags text = []) :
    expandSearched source passes text = .ok { text := BlankLines.collapse text } := by
  rw [expandSearched, BlockMarkup.reduce_of_no_tags _ _ _ noTags]
  rfl

end Loop

/-- **The passes overlook a text without brackets.**  Searched for blocks, a text in which no two brackets
open comes out with its long runs of line breaks collapsed and nothing to report.  Both passes give the
same without the search exactly when there is no long run.  A token that is no tag makes them search: the
text in front of it comes out collapsed, so it is what it would be alone only if it has no long run. -/
theorem untagged_passes_agree_iff (context : ContextMap) (source : Loop.Source) (passes : Int)
    (untagged : mayHoldTags text = false) :
    (Conditional.stripSearched context passes text = { text := BlankLines.collapse text } ∧
      Loop.expandSearched source passes text = .ok { text := BlankLines.collapse text }) ∧
    (Conditional.strip context passes text = Conditional.stripSearched context passes text ↔
      ¬ BlankLines.HasLongRun text) ∧
    (Loop.expand source passes text = Loop.expandSearched source passes text ↔
      ¬ BlankLines.HasLongRun text) ∧
    ∀ token, IsUnrelated token →
      ((Conditional.strip context passes (text ++ token)).text =
          (Conditional.strip context passes text).text ++ BlankLines.collapse token ↔
        ¬ BlankLines.HasLongRun text) ∧
      ((Loop.expand source passes (text ++ token)).map (·.text) =
          (Loop.expand source passes text).map (·.text ++ BlankLines.collapse token) ↔
        ¬ BlankLines.HasLongRun text) := by
  have noTags := BlockMarkup.tags_of_untagged Conditional.hasBracketedTags untagged
  have noLoopTags := BlockMarkup.tags_of_untagged Loop.hasBracketedTags untagged
  have searched := Conditional.stripSearched_of_no_tags context passes noTags
  have loopsSearched := Loop.expandSearched_of_no_tags source passes noLoopTags
  have stripped : Conditional.strip context passes text = { text } := by
    rw [Conditional.strip_eq, untagged]
    rfl
  have expanded : Loop.expand source passes text = .ok { text } := by
    rw [Loop.expand_eq, untagged]
    rfl
  refine ⟨⟨searched, loopsSearched⟩, ?_, ?_, fun token isUnrelated => ?_⟩
  · rw [stripped, searched, ← BlankLines.collapse_eq_self_iff]
    simp [eq_comm]
  · rw [expanded, loopsSearched, ← BlankLines.collapse_eq_self_iff]
    simp [eq_comm]
  · have mayHold := isUnrelated.bracketed.mayHoldTags_append text
    have both : BlankLines.collapse (text ++ token) =
        BlankLines.collapse text ++ BlankLines.collapse token := by
      have nothing : BlankLines.collapse [] = [] := rfl
      simpa [nothing] using isUnrelated.bracketed.collapse_append text []
    have searchedToken := Conditional.stripSearched_of_no_tags context passes
      (BlockMarkup.tags_append_unrelated Conditional.hasBracketedTags untagged isUnrelated.bracketed
        isUnrelated.noCondition)
    have loopsSearchedToken := Loop.expandSearched_of_no_tags source passes
      (BlockMarkup.tags_append_unrelated Loop.hasBracketedTags untagged isUnrelated.bracketed
        isUnrelated.noLoop)
    rw [stripped, expanded, Conditional.strip_eq, Loop.expand_eq, if_pos mayHold, if_pos mayHold,
      searchedToken, loopsSearchedToken, both, ← BlankLines.collapse_eq_self_iff]
    simp [Except.map]

/-- Four line breaks in a row, of both kinds. -/
def spacedText : Text := "a\n\r\n\n\nb"

/-- A name in brackets. -/
def nameToken : Text := "[[Naam]]"

def plainSource : Loop.Source where
  settings := {}
  registry := .usual
  data := { today := { year := 2024, month := 7, day := 9 } }

theorem untagged_passes_agree_spacedText :
    mayHoldTags spacedText = false ∧ IsUnrelated nameToken ∧
      Conditional.strip {} 5 spacedText ≠ Conditional.stripSearched {} 5 spacedText ∧
      (Conditional.strip {} 5 (spacedText ++ nameToken)).text ≠
        (Conditional.strip {} 5 spacedText).text ++ BlankLines.collapse nameToken := by
  have untagged : mayHoldTags spacedText = false := by decide
  have isUnrelated : IsUnrelated nameToken := ⟨⟨"Naam", by decide, rfl⟩, rfl, rfl⟩
  have hasLongRun : BlankLines.HasLongRun spacedText :=
    ⟨"a", [['\n'], ['\r', '\n'], ['\n'], ['\n']], "b", rfl, by decide, by simp [BlankLines.IsBreak]⟩
  obtain ⟨-, strips, -, besideToken⟩ := untagged_passes_agree_iff {} plainSource 5 untagged
  exact ⟨untagged, isUnrelated, mt strips.mp (not_not_intro hasLongRun),
    mt (besideToken nameToken isUnrelated).1.mp (not_not_intro hasLongRun)⟩

/-- Three line breaks stay in a text without brackets. -/
theorem untagged_longRun_stays :
    ¬ ∀ (context : ContextMap) (source : Loop.Source) (passes : Int) (text : Text),
      mayHoldTags text = false →
        Conditional.strip context passes text = { text := BlankLines.collapse text } ∧
          Loop.expand source passes text = .ok { text := BlankLines.collapse text } := by
  intro holds
  have stripped := congrArg PassResult.text (holds {} plainSource 5 "a\n\n\nb" rfl).1
  exact absurd stripped (by decide)

end Covenant
