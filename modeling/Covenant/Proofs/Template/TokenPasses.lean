import Covenant.Proofs.Template.TokenTags

/-!
# Loops and conditional blocks between tokens

Expanding loops keeps a text tokenised when the items supply texts without delimiters, and stripping
conditional blocks always does.  A pass that reports no problem leaves none of its tags.
-/

namespace Covenant

open Loop (Symbol)

variable {kept : Text → Prop} {text : Text}

theorem mayHoldTags_of_clean {text : Text} (clean : Clean text) : mayHoldTags text = false := by
  rw [mayHoldTags]
  induction text with
  | nil => rfl
  | cons c text ih =>
      have notOpening : '[' ≠ c := by
        rintro rfl
        exact absurd (clean '[' List.mem_cons_self) (by decide)
      have later : Text.hasInfix ['[', '['] text = false :=
        ih fun other member => clean other (List.mem_cons_of_mem c member)
      simp [Text.hasInfix, List.isPrefixOf, notOpening, later]

theorem Tokenised.lacks_of_not_mayHoldTags {marks : Char → Bool} (tokenised : Tokenised marks kept text)
    (none : mayHoldTags text = false) : Lacks marks text := by
  obtain ⟨symbols, rfl, bears⟩ := tokenised
  intro c member
  obtain ⟨symbol, inSymbols, inSource⟩ := List.mem_flatMap.mp member
  have own := bears symbol inSymbols
  cases symbol with
  | char d =>
      rw [List.mem_singleton.mp inSource]
      exact own
  | slot content =>
      obtain ⟨before, after, rfl⟩ := List.append_of_mem inSymbols
      have mayHold := mayHoldTags_append (Symbol.written before)
        (content ++ [']', ']'] ++ Symbol.written after)
      have whole : Symbol.written (before ++ .slot content :: after) =
          Symbol.written before ++ '[' :: '[' :: (content ++ [']', ']'] ++ Symbol.written after) := by
        simp [Symbol.written, Symbol.source]
      rw [whole, mayHold] at none
      cases none

namespace Loop

theorem readsSlots : ReadsSlots markup.recognise isBracket (slotToken? recognise) :=
  .of_bracketed recognise_ignoresBefore (fun _ _ => isBracketed_of_tagText)
    (fun _ _ _ => recognise_eq_some_iff)

theorem variables_readSlots :
    ReadsSlots recogniseVariable isBracket (slotToken? recogniseVariable) := by
  have noBracket (c : Char) (allowed : Placeholder.inSquareBrackets c = true) :
      isBracket c = false := by
    simpa [Placeholder.inSquareBrackets] using And.left (by simpa [Placeholder.inSquareBrackets] using allowed)
  refine .of_bracketed Symbol.variables_ignoreBefore ?_
    (fun _ _ _ => enclosed?_double_eq_some_iff noBracket)
  rintro content _ ⟨-, allowed, rfl⟩
  exact ⟨content, fun c member => noBracket c (allowed c member), rfl⟩

/-! ### Items -/

/-- Values without delimiters. -/
def CleanValues (values : Members) : Prop := ∀ pair ∈ values, pair.2.IsClean

theorem CleanValues.valueOf? {values : Members} (clean : CleanValues values) {name : Text}
    {value : Value} (found : Loop.valueOf? values name = some value) : value.IsClean := by
  simp only [Loop.valueOf?, Option.map_eq_some_iff] at found
  obtain ⟨pair, found, rfl⟩ := found
  exact clean pair (List.mem_reverse.mp (List.mem_of_find?_eq_some found))

/-- A variable that is replaced by a text is replaced by one without delimiters. -/
theorem tokenised_pieceValue {values : Members} (clean : CleanValues values) {content source text : Text}
    (tokenised : Tokenised isBracket kept source)
    (isText : pieceValue values (.token content source) = .ok (.text text)) :
    Tokenised isBracket kept text := by
  simp only [pieceValue] at isText
  split at isText
  · rename_i value modifier found _
    cases value with
    | text stored =>
        simp only [modified, Except.ok.injEq, Value.text.injEq] at isText
        subst isText
        have storedClean : Clean stored := clean.valueOf? found
        exact .of_lacks (storedClean.bracketFree.applyGiven (some modifier))
    | _ =>
        simp only [modified] at isText
        split at isText <;> cases isText
  · rename_i value found _
    obtain rfl := Except.ok.inj isText
    have storedClean : Clean text := clean.valueOf? found
    exact .of_lacks storedClean.bracketFree
  · cases isText
    exact tokenised

theorem exists_texts_of_renderItem {values : Members} {body : Text}
    (rendered : renderItem values body = .ok text) :
    ∃ texts, List.Forall₂ (fun piece content => pieceValue values piece = .ok (.text content))
      (pieces body) texts ∧ text = texts.flatten := by
  obtain ⟨results, mapped, joined⟩ := Outcome.bind_eq_ok_iff.mp rendered
  obtain ⟨texts, areTexts, isJoined⟩ := Outcome.bind_eq_ok_iff.mp joined
  obtain rfl := Except.ok.inj isJoined
  refine ⟨texts, ?_, rfl⟩
  have pieceResults := Outcome.mapM_eq_ok_iff.mp mapped
  have resultTexts := Outcome.mapM_eq_ok_iff.mp areTexts
  clear mapped areTexts joined isJoined rendered
  generalize pieces body = given at pieceResults ⊢
  induction pieceResults generalizing texts with
  | nil =>
      cases resultTexts
      exact .nil
  | @cons piece result given results own later ih =>
      cases resultTexts with
      | @cons _ content _ texts isText laterTexts =>
          refine .cons ?_ (ih texts laterTexts)
          split at isText
          · obtain rfl := Except.ok.inj isText
            exact own
          · cases isText

theorem tokenised_renderItem {values : Members} (clean : CleanValues values) {body : Text}
    (tokenised : Tokenised isBracket kept body) (rendered : renderItem values body = .ok text) :
    Tokenised isBracket kept text := by
  obtain ⟨texts, areTexts, rfl⟩ := exists_texts_of_renderItem rendered
  obtain ⟨symbols, rfl, bear⟩ := tokenised
  rw [pieces, variables_readSlots.cut_written bear] at areTexts
  refine .of_exchanged (fun c text plain => ?_) (fun symbol member _ => bear symbol member)
    (fun content found text member isToken becomes => ?_) areTexts
  · obtain rfl := Value.text.inj (Except.ok.inj plain)
    rfl
  · exact tokenised_pieceValue clean
      ⟨[.slot content], by simp [Symbol.written], by simpa using bear _ member⟩ becomes

/-! ### Expanding -/

/-- The variables of the items of all collections hold no delimiters. -/
def SuppliesClean (source : Source) : Prop :=
  ∀ collection ∈ source.registry.toList, ∀ items,
    collection.items source.settings source.data source.surroundings = .ok items →
      ∀ item ∈ items, ∀ values,
        collection.itemValues source.settings source.data item = .ok values → CleanValues values

theorem tokenised_render_of_supplies {source : Source} (supplies : SuppliesClean source) :
    BlockMarkup.RendersTokenised isBracket kept (render source) := by
  intro name body text tokenised rendered
  rw [render] at rendered
  split at rendered
  · obtain rfl := Except.ok.inj rendered
    exact .of_lacks Lacks.nil
  · rename_i collection found
    have registered : collection ∈ source.registry.toList := by
      obtain ⟨before, after, listed, -⟩ := List.lookup_eq_some_iff.mp found
      simp [Registry.toList, listed]
    obtain ⟨items, listed, rendered⟩ := Outcome.bind_eq_ok_iff.mp rendered
    split at rendered
    · obtain rfl := Except.ok.inj rendered
      exact .of_lacks Lacks.nil
    · split at rendered
      · obtain ⟨texts, each, joined⟩ := Outcome.bind_eq_ok_iff.mp rendered
        obtain rfl := Except.ok.inj joined
        refine .flatten fun text isText => ?_
        obtain ⟨item, inItems, rendersItem⟩ := Outcome.exists_of_mem_mapM each isText
        obtain ⟨values, given, rendersItem⟩ := Outcome.bind_eq_ok_iff.mp rendersItem
        exact tokenised_renderItem (supplies collection registered items listed item inItems values given)
          tokenised rendersItem
      · obtain rfl := Except.ok.inj rendered
        exact tokenised.trim

/-- Expanding loops keeps a text tokenised, and without a problem it leaves no tag of a loop. -/
theorem tokenised_expand {source : Source} (supplies : SuppliesClean source) {passes : Int}
    (tokenised : Tokenised isBracket kept text) {result : PassResult}
    (expanded : expand source passes text = .ok result) (noProblems : result.problems = []) :
    Tokenised isBracket (fun content => kept content ∧ slotToken? recognise content = none)
      result.text := by
  rw [expand] at expanded
  split at expanded
  · obtain ⟨reduced, reduces, isResult⟩ := Outcome.bind_eq_ok_iff.mp expanded
    obtain rfl := Except.ok.inj isResult
    obtain ⟨-, finished⟩ := BlockMarkup.tokenised_reduce readsSlots
      (tokenised_render_of_supplies supplies) tokenised reduces
    dsimp only at noProblems
    split at noProblems
    · rename_i isFinished
      exact (finished isFinished noProblems).collapse rfl
    · simp at noProblems
  · rename_i none
    obtain rfl := Except.ok.inj expanded
    exact .of_lacks (tokenised.lacks_of_not_mayHoldTags (by simpa using none))

end Loop

namespace Conditional

theorem readsSlots : ReadsSlots markup.recognise isBracket (slotToken? recognise) :=
  .of_bracketed recognise_ignoresBefore (fun _ _ => isBracketed_of_tagText)
    (@recognise_eq_some_iff none)

theorem tokenised_render (context : ContextMap) :
    BlockMarkup.RendersTokenised isBracket kept
      (fun argument body => pure (render context argument body)) := by
  intro argument body text tokenised rendered
  obtain rfl := Except.ok.inj rendered
  rw [render]
  split
  · exact tokenised.trim
  · exact .of_lacks Lacks.nil

/-- Stripping conditional blocks keeps a text tokenised, and without a problem it leaves no tag of
a block. -/
theorem tokenised_strip {context : ContextMap} {passes : Int}
    (tokenised : Tokenised isBracket kept text)
    (noProblems : (strip context passes text).problems = []) :
    Tokenised isBracket (fun content => kept content ∧ slotToken? recognise content = none)
      (strip context passes text).text := by
  rw [strip] at noProblems ⊢
  split at noProblems
  · rename_i mayHold
    rw [if_pos mayHold]
    obtain ⟨-, finished⟩ := BlockMarkup.tokenised_reduce readsSlots (tokenised_render context)
      tokenised (BlockMarkup.reduce_pure (render context) passes.toNat [] text)
    dsimp only at noProblems
    split at noProblems
    · rename_i isFinished
      exact (finished isFinished noProblems).collapse rfl
    · simp at noProblems
  · rename_i none
    rw [if_neg none]
    exact .of_lacks (tokenised.lacks_of_not_mayHoldTags (by simpa using none))

end Conditional

end Covenant
