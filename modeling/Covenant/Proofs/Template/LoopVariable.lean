import Covenant.Proofs.Template.Completion
import Covenant.Proofs.Template.TokenPasses

/-!
# Variables in the body of a loop

A name in double brackets is found as a variable whatever stands around it, be it other brackets that
are never closed.  So a variable can be followed from the values of an item to the rendered text alone.
-/

namespace Covenant.Loop

variable {values : Members} {content name text : Text}

/-- What double brackets may hold to be a variable. -/
def IsVariable (content : Text) : Prop :=
  content ≠ [] ∧ ∀ c ∈ content, Placeholder.inSquareBrackets c = true

instance : DecidablePred IsVariable := fun content =>
  have := List.decidableBAll (fun c => Placeholder.inSquareBrackets c = true) content
  inferInstanceAs (Decidable (_ ∧ _))

theorem recogniseVariable_eq_some_iff {found : Text} {length : Nat} :
    recogniseVariable none text = some (found, length) ↔
      IsVariable found ∧ (Symbol.slot found).source <+: text ∧
        length = (Symbol.slot found).source.length := by
  rw [recogniseVariable, enclosed?_double_eq_some_iff Placeholder.isBracket_of_inSquareBrackets]
  constructor
  · rintro ⟨_, rest, ⟨filled, allowed, rfl⟩, rfl, isLength⟩
    exact ⟨⟨filled, allowed⟩, List.prefix_append _ rest, isLength⟩
  · rintro ⟨⟨filled, allowed⟩, ⟨rest, rfl⟩, isLength⟩
    exact ⟨_, rest, ⟨filled, allowed, rfl⟩, rfl, isLength⟩

/-- No variable goes from the text before a variable into it. -/
theorem source_prefix_append_slot {found : Text} (isVariable : IsVariable found) (filled : text ≠ [])
    (after : Text) :
    (Symbol.slot found).source <+: text ++ ((Symbol.slot content).source ++ after) ↔
      (Symbol.slot found).source <+: text := by
  refine ⟨?_, fun starts => starts.trans (List.prefix_append _ _)⟩
  rintro ⟨rest, whole⟩
  have noOpening : '[' ∉ found ++ [']', ']'] := by
    intro member
    rcases List.mem_append.mp member with inFound | inClosing
    · exact absurd (isVariable.2 '[' inFound) (by decide)
    · exact absurd inClosing (by decide)
  rcases List.append_eq_append_iff.mp whole with ⟨back, same, -⟩ | ⟨front, same, isTail⟩
  · exact ⟨back, same.symm⟩
  · cases front with
    | nil => exact ⟨[], by rw [same, List.append_nil, List.append_nil]⟩
    | cons c front =>
        -- the opening of the variable would be inside the brackets of what is found
        exfalso
        obtain ⟨rfl, inner⟩ := List.cons.inj isTail
        obtain ⟨first, text, rfl⟩ := List.exists_cons_of_ne_nil filled
        rw [Symbol.source, List.cons_append] at same
        obtain ⟨-, same⟩ := List.cons.inj same
        cases text with
        | nil =>
            obtain ⟨-, rfl⟩ := List.cons.inj same
            obtain ⟨d, found, rfl⟩ := List.exists_cons_of_ne_nil isVariable.1
            obtain ⟨rfl, -⟩ := List.cons.inj inner
            exact noOpening List.mem_cons_self
        | cons d text =>
            obtain ⟨-, same⟩ := List.cons.inj same
            exact noOpening (same ▸ List.mem_append_right text List.mem_cons_self)

theorem recogniseVariable_append_slot (filled : text ≠ []) (after : Text) :
    recogniseVariable none (text ++ ((Symbol.slot content).source ++ after)) =
      recogniseVariable none text := by
  refine Option.ext fun ⟨found, length⟩ => ?_
  rw [recogniseVariable_eq_some_iff, recogniseVariable_eq_some_iff]
  refine and_congr_right fun isVariable => and_congr_left fun _ => ?_
  exact source_prefix_append_slot isVariable filled after

theorem pieces_append_slot (isVariable : IsVariable content) (before after : Text) :
    pieces (before ++ ((Symbol.slot content).source ++ after)) =
      pieces before ++ .token content (Symbol.slot content).source :: pieces after := by
  have within (text found : Text) (length : Nat)
      (recognised : recogniseVariable none text = some (found, length)) : length ≤ text.length := by
    obtain ⟨-, starts, rfl⟩ := recogniseVariable_eq_some_iff.mp recognised
    exact starts.length_le
  have own : recogniseVariable none ((Symbol.slot content).source ++ after) =
      some (content, (Symbol.slot content).source.length) :=
    recogniseVariable_eq_some_iff.mpr ⟨isVariable, List.prefix_append _ after, rfl⟩
  rw [pieces, Piece.cut, Piece.cutAfter_append Symbol.variables_ignoreBefore
    (fun text filled => recogniseVariable_append_slot filled after) within none 0 (Nat.zero_le _),
    Piece.cut_of_recognised Symbol.variables_ignoreBefore after (by simp [Symbol.source]) own]
  rfl

/-! ### Rendering -/

theorem renderItem_of_texts {body : Text} {texts : List Text}
    (become : List.Forall₂ (fun piece content => pieceValue values piece = .ok (.text content))
      (pieces body) texts) : renderItem values body = .ok texts.flatten := by
  have mapped : (pieces body).mapM (pieceValue values) = .ok (texts.map Value.text) :=
    Outcome.mapM_eq_ok_iff.mpr (List.forall₂_map_right_iff.mpr become)
  rw [renderItem, mapped]
  exact Symbol.joinTexts_texts texts

/-- A variable is replaced on its own, between what the texts around it are rendered as. -/
theorem renderItem_append_slot (isVariable : IsVariable content) {shown : Text}
    (becomes : pieceValue values (.token content (Symbol.slot content).source) = .ok (.text shown))
    {before after first last : Text} (renderedBefore : renderItem values before = .ok first)
    (renderedAfter : renderItem values after = .ok last) :
    renderItem values (before ++ ((Symbol.slot content).source ++ after)) =
      .ok (first ++ (shown ++ last)) := by
  obtain ⟨firstTexts, becomeFirst, rfl⟩ := exists_texts_of_renderItem renderedBefore
  obtain ⟨lastTexts, becomeLast, rfl⟩ := exists_texts_of_renderItem renderedAfter
  have become : List.Forall₂ (fun piece content => pieceValue values piece = .ok (.text content))
      (pieces (before ++ ((Symbol.slot content).source ++ after)))
      (firstTexts ++ shown :: lastTexts) := by
    rw [pieces_append_slot isVariable]
    exact List.rel_append becomeFirst (.cons becomes becomeLast)
  rw [renderItem_of_texts become, List.flatten_append, List.flatten_cons]

/-- In all bodies, a variable shows a text wherever it stands and in any letter case, in the case that
a modifier asks for. -/
def Shows (values : Members) (name text : Text) : Prop :=
  ∀ content, IsVariable content → Text.upper (Modifier.split content).2 = Text.upper name →
    ∀ before after first last, renderItem values before = .ok first →
      renderItem values after = .ok last →
        renderItem values (before ++ ((Symbol.slot content).source ++ after)) =
          .ok (first ++ (Modifier.applyGiven (Modifier.split content).1 text ++ last))

theorem valueOf?_congr {other : Text} (same : Text.upper other = Text.upper name) :
    valueOf? values other = valueOf? values name := by
  rw [valueOf?, valueOf?, same]

theorem shows_of_valueOf? (given : valueOf? values name = some (.text text)) :
    Shows values name text := by
  intro content isVariable same before after first last renderedBefore renderedAfter
  refine renderItem_append_slot isVariable ?_ renderedBefore renderedAfter
  rw [pieceValue]
  dsimp only
  rw [valueOf?_congr same, given]
  cases (Modifier.split content).1 <;> rfl

/-- A name that stands for itself in double brackets. -/
def IsVariableName (name : Text) : Prop := IsVariable name ∧ Modifier.split name = (none, name)

instance : DecidablePred IsVariableName := fun _ => inferInstanceAs (Decidable (_ ∧ _))

/-- A variable shows no other text than its value. -/
theorem Shows.eq {other : Text} (shows : Shows values name other) (isName : IsVariableName name)
    (given : valueOf? values name = some (.text text)) : other = text := by
  obtain ⟨isVariable, noModifier⟩ := isName
  have nothing : renderItem values [] = .ok [] := rfl
  have written := shows name isVariable (by rw [noModifier]) [] [] [] [] nothing nothing
  rw [shows_of_valueOf? given name isVariable (by rw [noModifier]) [] [] [] [] nothing nothing,
    noModifier] at written
  simpa [Modifier.applyGiven] using (Except.ok.inj written).symm

end Covenant.Loop
