import Covenant.Proofs.Text.Folded
import Covenant.Template.Block
import Covenant.Template.Placeholder
import Mathlib.Data.List.Basic

/-!
# Text without brackets

Text in which no square bracket stands can hold no tag, and a tag ends where the brackets after
its argument stand.
-/

namespace Covenant

theorem isBracket_iff {c : Char} : isBracket c = true ↔ c = '[' ∨ c = ']' := by
  simp [isBracket]

theorem Placeholder.isBracket_of_inSquareBrackets (c : Char)
    (allowed : Placeholder.inSquareBrackets c = true) : isBracket c = false := by
  simp only [inSquareBrackets, Bool.and_eq_true, Bool.not_eq_true'] at allowed
  exact allowed.1

def BracketFree (text : Text) : Prop := ∀ c ∈ text, isBracket c = false

instance : DecidablePred BracketFree := fun text =>
  List.decidableBAll (fun c => isBracket c = false) text

namespace BracketFree

variable {first second text : Text}

theorem nil : BracketFree [] := fun _ member => nomatch member

theorem append (freeFirst : BracketFree first) (freeSecond : BracketFree second) :
    BracketFree (first ++ second) := by
  intro c member
  rcases List.mem_append.mp member with member | member
  · exact freeFirst c member
  · exact freeSecond c member

theorem trim (free : BracketFree text) : BracketFree (Text.trim text) :=
  fun c member => free c (Text.mem_of_mem_trim member)

theorem takeWhile_closing (free : BracketFree text) (rest : Text) :
    (text ++ ']' :: rest).takeWhile (fun c => !isBracket c) = text := by
  rw [List.takeWhile_append_of_pos (by simpa [BracketFree] using free),
    List.takeWhile_cons_of_neg (by decide), List.append_nil]

end BracketFree

theorem bracketFree_takeWhile (text : Text) :
    BracketFree (text.takeWhile fun c => !isBracket c) := by
  intro c member
  simpa using List.mem_takeWhile_imp member

theorem hasInfix_append (needle before after : Text) :
    Text.hasInfix needle (before ++ (needle ++ after)) = true := by
  induction before with
  | nil =>
      cases needle with
      | nil => cases after <;> simp [Text.hasInfix]
      | cons c needle => simp [Text.hasInfix, List.isPrefixOf_iff_prefix]
  | cons c before ih => simp [Text.hasInfix, ih]

/-- A text with two opening brackets in a row may hold tags. -/
theorem mayHoldTags_append (before after : Text) :
    mayHoldTags (before ++ '[' :: '[' :: after) = true :=
  hasInfix_append ['[', '['] before after

end Covenant
