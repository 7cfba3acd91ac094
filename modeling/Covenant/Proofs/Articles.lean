import Covenant.Articles
import Covenant.Proofs.Case.Clean
import Covenant.Proofs.Template.Filled

/-!
# Articles without delimiters

Clauses without delimiters are rendered as they are: nothing in them is a tag or a placeholder.  Put
together they hold the markers of their headings as the only tokens.
-/

namespace Covenant

namespace Clause.IsClean

variable {clause : Clause} {value : Value}

theorem isClean_effectiveText (clean : clause.IsClean) (read : clause.effectiveText = .ok value) :
    value.IsClean := by
  obtain ⟨ofCase, -, read⟩ := Outcome.bind_eq_ok_iff.mp read
  split at read
  · obtain rfl := Except.ok.inj read
    exact clean.caseText
  · obtain ⟨ofUser, -, read⟩ := Outcome.bind_eq_ok_iff.mp read
    split at read
    · obtain rfl := Except.ok.inj read
      exact clean.userText
    · obtain rfl := Except.ok.inj read
      exact clean.text.orElse (show Clean [] from Lacks.nil)

theorem isClean_effectiveTitle (clean : clause.IsClean) (read : clause.effectiveTitle = .ok value) :
    value.IsClean := by
  obtain ⟨ofUser, -, read⟩ := Outcome.bind_eq_ok_iff.mp read
  split at read
  · obtain rfl := Except.ok.inj read
    exact clean.userTitle
  · obtain rfl := Except.ok.inj read
    exact clean.title.orElse (show Clean [] from Lacks.nil)

end Clause.IsClean

/-- The content of the marker of a heading. -/
def IsHeadingWord (content : Text) : Prop := content = "ARTICLE" ∨ content = "SUBARTICLE"

/-- A text whose delimiters are the brackets of the markers of headings. -/
def HoldsHeadings (text : Text) : Prop := Tokenised isDelimiter IsHeadingWord text

namespace Articles

theorem clean_textOf {value : Value} (clean : value.IsClean) {text : Text}
    (isText : textOf value = .ok text) : Clean text := by
  cases value with
  | text content =>
      obtain rfl := Except.ok.inj isText
      exact clean
  | _ => cases isText

theorem clean_renderText {source : Loop.Source} {scope : Scope} {clause : Clause} (clean : clause.IsClean)
    {resolved : Resolved} (rendered : renderText source scope clause = .ok resolved) :
    Clean resolved.text := by
  obtain ⟨value, isValue, rendered⟩ := Outcome.bind_eq_ok_iff.mp rendered
  obtain ⟨text, isText, rendered⟩ := Outcome.bind_eq_ok_iff.mp rendered
  obtain ⟨expanded, expands, same⟩ := Outcome.bind_eq_ok_iff.mp rendered
  obtain rfl := Except.ok.inj same
  have textClean := clean_textOf (clean.isClean_effectiveText isValue) isText
  have noTags : ¬ mayHoldTags text = true := by simp [mayHoldTags_of_clean textClean]
  rw [Loop.expand, if_neg noTags] at expands
  obtain rfl := Except.ok.inj expands
  show Clean (Text.trim (Placeholder.resolve _ (Conditional.strip _ _ text).text))
  rw [Conditional.strip, if_neg noTags, Placeholder.resolve_of_clean textClean]
  exact textClean.trim

theorem clean_renderEach {source : Loop.Source} {scope : Scope} {clauses : List Clause}
    (clean : ∀ clause ∈ clauses, clause.IsClean) {rendering : Rendering}
    (rendered : renderEach source scope clauses = .ok rendering) :
    ∀ clause ∈ rendering.clauses, Clean clause.title ∧ Clean clause.body := by
  induction clauses generalizing rendering with
  | nil =>
      obtain rfl := Except.ok.inj rendered
      nofun
  | cons clause clauses ih =>
      obtain ⟨own, later⟩ := List.forall_mem_cons.mp clean
      obtain ⟨body, isBody, rendered⟩ := Outcome.bind_eq_ok_iff.mp rendered
      split at rendered
      · obtain ⟨rest, isRest, same⟩ := Outcome.bind_eq_ok_iff.mp rendered
        obtain rfl := Except.ok.inj same
        have restClean := ih later isRest
        exact restClean
      · obtain ⟨value, isValue, rendered⟩ := Outcome.bind_eq_ok_iff.mp rendered
        obtain ⟨title, isTitle, rendered⟩ := Outcome.bind_eq_ok_iff.mp rendered
        obtain ⟨rest, isRest, same⟩ := Outcome.bind_eq_ok_iff.mp rendered
        obtain rfl := Except.ok.inj same
        have titleClean := clean_textOf (own.isClean_effectiveTitle isValue) isTitle
        refine List.forall_mem_cons.mpr ⟨⟨?_, clean_renderText own isBody⟩, ih later isRest⟩
        show Clean (Text.trim (Placeholder.resolve _ title))
        rw [Placeholder.resolve_of_clean titleClean]
        exact titleClean.trim

/-- Only given clauses are selected. -/
theorem mem_of_mem_select {settings : Settings} {scope : Scope} {clauses selected : List Clause}
    {clause : Clause} (selects : select settings scope clauses = .ok selected)
    (member : clause ∈ selected) : clause ∈ clauses := by
  obtain ⟨applying, filtered, same⟩ := Outcome.bind_eq_ok_iff.mp selects
  obtain rfl := Except.ok.inj same
  exact Outcome.mem_of_mem_filterM filtered (List.mem_mergeSort.mp member)

theorem clean_render {source : Loop.Source} {scope : Scope} {clauses : List Clause}
    (clean : ∀ clause ∈ clauses, clause.IsClean) {rendering : Rendering}
    (rendered : render source scope clauses = .ok rendering) :
    ∀ clause ∈ rendering.clauses, Clean clause.title ∧ Clean clause.body := by
  obtain ⟨selected, selects, rendered⟩ := Outcome.bind_eq_ok_iff.mp rendered
  exact clean_renderEach (fun clause member => clean clause (mem_of_mem_select selects member)) rendered

theorem holdsHeadings_block {rendered : RenderedClause} (titleClean : Clean rendered.title)
    (bodyClean : Clean rendered.body) : HoldsHeadings (block rendered) := by
  have marker : HoldsHeadings (headingMarker rendered.clause.numbering) := by
    have space : Clean [' '] := by decide
    cases rendered.clause.numbering with
    | newNumber =>
        have word : Clean ("ARTICLE" : Text) := by decide
        exact (Tokenised.of_slot word fun _ => .inl rfl).append (.of_lacks space)
    | continued =>
        have word : Clean ("SUBARTICLE" : Text) := by decide
        exact (Tokenised.of_slot word fun _ => .inr rfl).append (.of_lacks space)
    | unnumbered => exact .of_lacks Lacks.nil
  have headingTokens : HoldsHeadings (heading rendered) := (marker.append (.of_lacks titleClean)).trim
  rw [block]
  split
  · exact .of_lacks bodyClean
  · exact headingTokens.append (.of_lacks (Lacks.cons rfl bodyClean))

theorem holdsHeadings_assemble {clauses : List RenderedClause}
    (clean : ∀ clause ∈ clauses, Clean clause.title ∧ Clean clause.body) :
    HoldsHeadings (assemble clauses) := by
  refine .flatten (Text.forall_mem_intersperse (.of_lacks (by decide)) fun text member => ?_)
  obtain ⟨clause, isClause, rfl⟩ := List.mem_map.mp member
  exact holdsHeadings_block (clean clause isClause).1 (clean clause isClause).2

theorem clean_contents {label heading : Text} (labelClean : Clean label) (headingClean : Clean heading)
    {clauses : List RenderedClause} (clean : ∀ clause ∈ clauses, Clean clause.title) :
    Clean (contents label heading clauses) := by
  have titles : ∀ title ∈ numberedTitles clauses, Clean title := by
    intro title member
    obtain ⟨clause, isClause, rfl⟩ := List.mem_map.mp member
    exact clean clause (List.mem_filter.mp isClause).1
  have lines (titles : List Text) (each : ∀ title ∈ titles, Clean title) (number : Nat) :
      ∀ line ∈ contentsLines label number titles, Clean line := by
    induction titles generalizing number with
    | nil => nofun
    | cons title titles ih =>
        obtain ⟨own, later⟩ := List.forall_mem_cons.mp each
        refine List.forall_mem_cons.mpr ⟨?_, ih later (number + 1)⟩
        have point : Clean (": " : Text) := by decide
        exact ((labelClean.append (Lacks.cons rfl (Clean.ofNat number))).append point).append own
  rw [contents]
  split
  · exact Lacks.nil
  · exact .joinWith (by decide) (List.forall_mem_cons.mpr ⟨headingClean, lines _ titles 1⟩)

end Articles

end Covenant
