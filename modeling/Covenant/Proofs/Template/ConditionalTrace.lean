import Covenant.Proofs.Template.BlankLines
import Covenant.Proofs.Template.ConditionalForest
import Covenant.Proofs.Template.Placed
import Covenant.Proofs.Template.Steady

/-!
# Stripping, tag by tag

Stripping a text in which brackets stand in tags only is a run over its parts: a block whose test
holds is exchanged for its content without the white space around it, any other block for nothing.
Every tag of the text can so be followed to the result.
-/

namespace Covenant

namespace Part

def isBlank : Part → Bool
  | plain c => Covenant.isBlank c
  | tagged _ => false

/-- The parts without the white space around them. -/
def trimmed (parts : List Part) : List Part := (parts.dropWhile isBlank).rdropWhile isBlank

theorem trimmed_sublist (parts : List Part) : (trimmed parts).Sublist parts :=
  (List.rdropWhile_prefix _ _).sublist.trans (List.dropWhile_sublist _)

theorem tagsIn_trimmed (parts : List Part) : tagsIn (trimmed parts) = tagsIn parts := by
  have fromStart : tagsIn (parts.dropWhile isBlank) = tagsIn parts := by
    induction parts with
    | nil => rfl
    | cons part parts ih =>
        cases part with
        | plain c =>
            rw [List.dropWhile_cons]
            split
            · simpa using ih
            · rfl
        | tagged tag => rfl
  have atEnd (rest : List Part) : tagsIn (rest.rdropWhile isBlank) = tagsIn rest := by
    induction rest using List.reverseRecOn with
    | nil => rfl
    | append_singleton rest part ih =>
        rw [List.rdropWhile_concat]
        split
        · rename_i blank
          cases part with
          | plain c => simpa using ih
          | tagged tag => simp [isBlank] at blank
        · rfl
  rw [trimmed, atEnd, fromStart]

end Part

namespace IsBracketed

variable {source : Text}

theorem isTight (bracketed : IsBracketed source) : Text.IsTight source := by
  obtain ⟨body, -, rfl⟩ := bracketed
  exact ⟨⟨'[', _, rfl, by decide⟩, '[' :: '[' :: (body ++ [']']), ']', by simp, by decide⟩

/-- A text in brackets is changed or kept whatever is around it. -/
theorem collapse_append (bracketed : IsBracketed source) (before after : Text) :
    BlankLines.collapse (before ++ (source ++ after)) =
      BlankLines.collapse before ++ (BlankLines.collapse source ++ BlankLines.collapse after) := by
  obtain ⟨body, -, rfl⟩ := bracketed
  have enclosed := @BlankLines.collapse_append_enclosed '[' ']' (by decide) (by decide) before
    ('[' :: (body ++ [']'])) after
  simpa using enclosed

end IsBracketed

namespace Conditional

/-- A part that is found again wherever it is written. -/
def Legible : Part → Prop
  | .plain c => isBracket c = false
  | .tagged tag => ∃ argument, TagText (wordOf tag.isOpen) argument tag.source ∧
      tag.unplaced = markup.tagOf ⟨⟨tag.isOpen, argument⟩, 0, tag.source⟩

theorem isFormOf_bracket {isOpen : Bool} {letter c : Char} (member : letter ∈ wordOf isOpen)
    (bracket : c = '[' ∨ c = ']') : Text.isFormOf letter c = false := by
  cases isOpen with
  | true =>
      have letters : letter = 'i' ∨ letter = 'f' := by simpa [wordOf] using member
      rcases letters with rfl | rfl <;> rcases bracket with rfl | rfl <;> decide
  | false =>
      have letters : letter = 'e' ∨ letter = 'n' ∨ letter = 'd' ∨ letter = 'i' ∨ letter = 'f' := by
        simpa [wordOf] using member
      rcases letters with rfl | rfl | rfl | rfl | rfl <;> rcases bracket with rfl | rfl <;> decide

/-- No form of a letter in the word of a tag is a bracket. -/
theorem bracketFree_of_spells {isOpen : Bool} {letters : Text}
    (spells : Text.Spells (wordOf isOpen) letters) : BracketFree letters := by
  intro c member
  obtain ⟨letter, inWord, isForm⟩ := spells.exists_letter member
  by_contra notFree
  have bracket := isBracket_iff.mp (by simpa using notFree)
  rw [isFormOf_bracket inWord bracket] at isForm
  simp at isForm

theorem bracketFree_of_blank {blanks : Text} (allBlank : ∀ c ∈ blanks, isBlank c = true) :
    BracketFree blanks := by
  intro c member
  have blank := allBlank c member
  by_contra notFree
  rcases isBracket_iff.mp (by simpa using notFree) with rfl | rfl
  · exact absurd blank (by decide)
  · exact absurd blank (by decide)

theorem isBracketed_of_tagText {isOpen : Bool} {argument source : Text}
    (tag : TagText (wordOf isOpen) argument source) : IsBracketed source := by
  obtain ⟨blanks, letters, blanksAfter, allBlank, spells, allBlankAfter, free⟩ := tag
  have colon : BracketFree [':'] := by decide
  have body := (bracketFree_of_blank allBlank).append ((bracketFree_of_spells spells).append
    ((bracketFree_of_blank allBlankAfter).append (colon.append free)))
  exact ⟨_, body, by simp⟩

namespace Legible

variable {part : Part} {parts : List Part} {tag : Tag}

theorem isBracketed (legible : Legible (.tagged tag)) : IsBracketed tag.source := by
  obtain ⟨argument, tagText, -⟩ := legible
  exact isBracketed_of_tagText tagText

theorem reads (legible : ∀ part ∈ parts, Legible part) : markup.Reads parts := by
  apply BlockMarkup.Reads.of_forall
  intro part member
  have partLegible := legible part member
  cases part with
  | plain c => exact reads_plain partLegible
  | tagged tag =>
      obtain ⟨argument, tagText, isTag⟩ := partLegible
      exact BlockMarkup.Reads.tagged recognise_ignoresBefore tagText.ne_nil
        (fun rest => (@recognise_eq_some_iff none _ ⟨tag.isOpen, argument⟩ _).mpr
          ⟨tag.source, rest, tagText, rfl, rfl⟩) isTag

theorem unplaced_eq {other : Tag} (legible : Legible (.tagged tag))
    (otherLegible : Legible (.tagged other)) (same : tag.source = other.source) :
    tag.unplaced = other.unplaced := by
  have read := (reads (by simpa using legible) : markup.Reads [.tagged tag]).parts_written
  have otherRead := (reads (by simpa using otherLegible) : markup.Reads [.tagged other]).parts_written
  simp only [Part.written_cons, Part.written_nil, List.append_nil, Part.source, List.map_cons,
    List.map_nil, Part.unplaced] at read otherRead
  rw [same, otherRead] at read
  simpa using read.symm

theorem isTrimmable (legible : ∀ part ∈ parts, Legible part) :
    Text.IsTrimmable Part.source Part.isBlank parts := by
  intro part member
  have partLegible := legible part member
  cases part with
  | plain c =>
      by_cases blank : isBlank c = true
      · exact .inl ⟨blank, c, rfl, blank⟩
      · have notBlank : isBlank c = false := by simpa using blank
        exact .inr ⟨notBlank, ⟨c, [], rfl, notBlank⟩, [], c, rfl, notBlank⟩
  | tagged tag => exact .inr ⟨rfl, partLegible.isBracketed.isTight⟩

theorem written_trimmed (legible : ∀ part ∈ parts, Legible part) :
    Part.written (Part.trimmed parts) = Text.trim (Part.written parts) :=
  (Text.trim_flatMap (isTrimmable legible)).symm

end Legible

/-- Whether the block of an opening tag is kept. -/
def keeps (context : ContextMap) (opening : Tag) : Bool := test context opening.argument

def exchange (context : ContextMap) : Exchange := fun opening content =>
  if keeps context opening then Part.trimmed content else []

theorem exchange_shrinks (context : ContextMap) : Shrinks (exchange context) := by
  intro opening content
  rw [exchange]
  split
  · exact Part.trimmed_sublist content
  · exact List.nil_sublist content

theorem exchange_keepsTags (context : ContextMap) : KeepsTags (exchange context) (keeps context) := by
  intro opening content
  rw [exchange]
  split
  · exact Part.tagsIn_trimmed content
  · rfl

theorem exchange_simulates (context : ContextMap) :
    Simulation markup (fun argument inner => (pure (render context argument inner) : Id Text))
      (exchange context) (fun parts => ∀ part ∈ parts, Legible part) where
  reads _ legible := Legible.reads legible
  renders parts legible span member := by
    have inside : ∀ part ∈ span.content, Legible part := by
      intro part inContent
      exact legible part ((span_parts_sublist member).subset (by simp [Span.parts, inContent]))
    have rendered : render context span.opening.argument (Part.written span.content) =
        Part.written (exchange context span.opening span.content) := by
      rw [render, exchange, keeps]
      split
      · exact (Legible.written_trimmed inside).symm
      · rfl
    exact congrArg pure rendered
  preserved parts legible part member :=
    legible part ((pass_sublist (exchange_shrinks context) parts).subset member)

end Conditional

end Covenant
