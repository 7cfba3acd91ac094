import Covenant.Proofs.Template.Bracket
import Covenant.Proofs.Template.Pairing
import Mathlib.Data.List.Nodup

/-!
# Reports

A fault is reported once.  The message about a tag in brackets says which tag it is and which open
tag it does not fit, because the brackets show where the tag ends.
-/

namespace Covenant

section Problems

variable {problems : List Text} {faults : List MarkupFault}

theorem mem_addProblems {message : Text} :
    message ∈ addProblems problems faults ↔
      message ∈ problems ∨ ∃ fault ∈ faults, fault.message = message := by
  induction faults generalizing problems with
  | nil => simp [addProblems]
  | cons fault faults ih =>
      rw [addProblems, List.foldl_cons, ← addProblems, ih]
      by_cases known : problems.contains fault.message = true
      · rw [if_pos known]
        have isProblem : fault.message ∈ problems := by simpa using known
        constructor
        · rintro (member | ⟨other, member, same⟩)
          · exact .inl member
          · exact .inr ⟨other, by simp [member], same⟩
        · rintro (member | ⟨other, member, rfl⟩)
          · exact .inl member
          · rcases List.mem_cons.mp member with rfl | member
            · exact .inl isProblem
            · exact .inr ⟨other, member, rfl⟩
      · rw [if_neg known]
        simp only [List.mem_append, List.mem_cons, List.not_mem_nil, or_false, exists_eq_or_imp,
          or_assoc, @eq_comm _ message]

theorem addProblems_of_known (known : ∀ fault ∈ faults, fault.message ∈ problems) :
    addProblems problems faults = problems := by
  induction faults with
  | nil => rfl
  | cons fault faults ih =>
      have isKnown := known fault (by simp)
      rw [addProblems, List.foldl_cons, if_pos (by simpa using isKnown)]
      exact ih fun other member => known other (by simp [member])

theorem addProblems_of_nodup (fresh : (problems ++ faults.map MarkupFault.message).Nodup) :
    addProblems problems faults = problems ++ faults.map MarkupFault.message := by
  induction faults generalizing problems with
  | nil => simp [addProblems]
  | cons fault faults ih =>
      have unknown : fault.message ∉ problems := by
        intro member
        exact (List.nodup_append.mp fresh).2.2 _ member fault.message (by simp) rfl
      rw [addProblems, List.foldl_cons, if_neg (by simpa using unknown), ← addProblems,
        ih (by simpa using fresh)]
      simp

end Problems

/-- A text in double brackets without other brackets. -/
def IsBracketed (source : Text) : Prop :=
  ∃ body, BracketFree body ∧ source = '[' :: '[' :: (body ++ [']', ']'])

theorem BracketFree.append_closing_inj {first second rest other : Text} (free : BracketFree first)
    (otherFree : BracketFree second) (same : first ++ ']' :: rest = second ++ ']' :: other) :
    first = second := by
  have read := congrArg (List.takeWhile fun c => !isBracket c) same
  rwa [free.takeWhile_closing, otherFree.takeWhile_closing] at read

namespace IsBracketed

variable {source other rest otherRest : Text}

theorem append_inj (bracketed : IsBracketed source) (otherBracketed : IsBracketed other)
    (same : source ++ rest = other ++ otherRest) : source = other ∧ rest = otherRest := by
  obtain ⟨body, free, rfl⟩ := bracketed
  obtain ⟨otherBody, otherFree, rfl⟩ := otherBracketed
  have fromBody : body ++ ']' :: (']' :: rest) = otherBody ++ ']' :: (']' :: otherRest) := by
    simpa using same
  obtain rfl := free.append_closing_inj otherFree fromBody
  exact ⟨rfl, by simpa using fromBody⟩

end IsBracketed

namespace MarkupFault

/-- The open tag that the tag of a fault does not fit. -/
def innermost? : MarkupFault → Option Tag
  | unopened _ => none
  | mismatched _ innermost => some innermost
  | unclosed _ => none

theorem innermost?_strayFault (stray : Tag × List Tag) :
    (strayFault stray).innermost? = stray.2.head? := by
  obtain ⟨tag, _ | ⟨innermost, outer⟩⟩ := stray <;> rfl

/-- How the message begins, before the tag. -/
def beginning : MarkupFault → Text
  | unopened _ => "Closing tag "
  | mismatched _ _ => "Closing tag "
  | unclosed _ => "Opening tag "

/-- How the message goes on after the tag. -/
def ending : MarkupFault → Text
  | unopened _ => " has no opening tag"
  | mismatched _ innermost => " does not match " ++ innermost.source
  | unclosed _ => " is never closed"

theorem message_eq (fault : MarkupFault) :
    fault.message = fault.beginning ++ (fault.tag.source ++ fault.ending) := by
  cases fault with
  | unopened tag => exact List.append_assoc _ _ _
  | mismatched tag innermost => exact (List.append_assoc _ _ _).trans (List.append_assoc _ _ _)
  | unclosed tag => exact List.append_assoc _ _ _

theorem beginning_cases (fault : MarkupFault) :
    fault.beginning = "Closing tag " ∨ fault.beginning = "Opening tag " := by
  cases fault with
  | unopened tag => exact .inl rfl
  | mismatched tag innermost => exact .inl rfl
  | unclosed tag => exact .inr rfl

theorem length_beginning (fault : MarkupFault) : fault.beginning.length = 12 := by
  rcases fault.beginning_cases with closes | opens
  · simp [closes]
  · simp [opens]

theorem unopened_ending_ne (source : Text) :
    (" has no opening tag" : Text) ≠ " does not match " ++ source := by
  simp

theorem unclosed_ending_ne (source : Text) :
    (" is never closed" : Text) ≠ " does not match " ++ source := by
  simp

theorem sources_of_ending_eq {fault other : MarkupFault} (same : fault.ending = other.ending) :
    fault.innermost?.map (·.source) = other.innermost?.map (·.source) := by
  cases fault with
  | unopened tag =>
      cases other with
      | unopened otherTag => rfl
      | mismatched otherTag innermost => exact absurd same (unopened_ending_ne _)
      | unclosed otherTag => rfl
  | mismatched tag innermost =>
      cases other with
      | unopened otherTag => exact absurd same.symm (unopened_ending_ne _)
      | mismatched otherTag otherInnermost =>
          exact congrArg some (List.append_cancel_left same)
      | unclosed otherTag => exact absurd same.symm (unclosed_ending_ne _)
  | unclosed tag =>
      cases other with
      | unopened otherTag => rfl
      | mismatched otherTag innermost => exact absurd same (unclosed_ending_ne _)
      | unclosed otherTag => rfl

theorem sources_of_message_eq {fault other : MarkupFault} (bracketed : IsBracketed fault.tag.source)
    (otherBracketed : IsBracketed other.tag.source) (same : fault.message = other.message) :
    fault.tag.source = other.tag.source ∧
      fault.innermost?.map (·.source) = other.innermost?.map (·.source) := by
  rw [message_eq, message_eq] at same
  have afterBeginning := (List.append_inj same (by simp only [length_beginning])).2
  obtain ⟨sameSource, sameEnding⟩ := bracketed.append_inj otherBracketed afterBeginning
  exact ⟨sameSource, sources_of_ending_eq sameEnding⟩

end MarkupFault

end Covenant
