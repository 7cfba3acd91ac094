import Covenant.Proofs.Case.CleanContext
import Covenant.Proofs.Template.Structural
import Covenant.Resolver

/-!
# What a report without problems says about the text

When resolving a text reports neither a warning nor an unresolved name, the tokens that are left in
it are known: no tag of a loop or a conditional block, no marker and no name is among them.  What may
be left are the names of lists, names that only begin like the tag of a loop, what stands in a
structural placeholder of another style, and the tokens that conditional placeholders bring along.
-/

namespace Covenant

open Loop (Symbol)

/-! ### Reports -/

theorem countName_ne_nil (name : Text) (counts : List (Text × Nat)) : countName name counts ≠ [] := by
  cases counts with
  | nil => simp [countName]
  | cons count counts =>
      rw [countName]
      split <;> simp

namespace Diagnostics

theorem addAllUnresolved_eq_nil {diagnostics : Diagnostics} {names : List Text}
    (none : (diagnostics.addAllUnresolved names).unresolved = []) : names = [] := by
  rcases List.eq_nil_or_concat names with rfl | ⟨earlier, last, rfl⟩
  · rfl
  · rw [List.concat_eq_append, addAllUnresolved, List.foldl_append] at none
    exact absurd none (countName_ne_nil last _)

end Diagnostics

namespace Resolver

variable {resolver : Resolver} {data : CaseData} {text : Text}

theorem eq_nil_of_isOk_record {diagnostics : Diagnostics} {resolved : Resolved}
    (ok : (record diagnostics resolved).isOk = true) : resolved.warnings = [] ∧ resolved.unresolved = [] := by
  simp only [Diagnostics.isOk, Bool.and_eq_true, List.isEmpty_iff] at ok
  refine ⟨?_, Diagnostics.addAllUnresolved_eq_nil ok.2⟩
  have warnings : (record diagnostics resolved).warnings = diagnostics.warnings ++ resolved.warnings := by
    have kept (names : List Text) (start : Diagnostics) :
        (start.addAllUnresolved names).warnings = start.warnings := by
      induction names generalizing start with
      | nil => rfl
      | cons name names ih => exact ih (start.addUnresolved name)
    exact kept resolved.unresolved (diagnostics.warnAll resolved.warnings)
  rw [warnings] at ok
  exact (List.append_eq_nil_iff.mp ok.1).2

end Resolver

/-! ### Values -/

/-- The marker of a heading is a marker in any letter case. -/
theorem IsHeadingWord.accepted {word other : Text} (isHeading : IsHeadingWord word)
    (recased : Recased word other) : NumberingMarker.Accepted (Symbol.slot other).source := by
  have encloses : NumberingMarker.Encloses other (Symbol.slot other).source :=
    .intro [] [] nofun nofun
  have spelled {spelling : Text} (known : spelling ∈ NumberingMarker.spellings.map (·.1))
      (ascii : word.all (fun c => c.toNat < 0x80) = true) (small : word.map Char.toLower = spelling) :
      Text.Spells spelling other := by
    obtain ⟨otherAscii, same⟩ := recased.ascii (by simpa using ascii)
    rw [NumberingMarker.spells_iff_of_ascii (NumberingMarker.mem_letters known) otherAscii,
      Text.lower_of_ascii otherAscii, same, small]
  rcases isHeading with rfl | rfl
  · exact ⟨"article", by decide, other, spelled (by decide) (by decide) (by decide), encloses⟩
  · exact ⟨"subarticle", by decide, other, spelled (by decide) (by decide) (by decide), encloses⟩

/-- A token in the text that the context holds for a conditional placeholder, in the letter case that
a modifier asks for. -/
def CaseData.BringsToken (data : CaseData) (context : ContextMap) (content : Text) : Prop :=
  ∃ text modifier, data.IsChosen context text ∧
    (Symbol.slot content).source <:+: Modifier.applyGiven modifier text

/-- The tokens of the values of a case, when they are inserted, are markers or stand in the text of a
conditional placeholder. -/
theorem CaseContext.tokenised_value {settings : Settings} {registry : Registry} {label : Text}
    {data : CaseData} {diagnostics : Diagnostics} {building : Building}
    (forms : registry.HoldsCleanForms) (labelClean : Clean label) (clean : data.IsClean)
    (built : build settings registry label data diagnostics = .ok building) {name value : Text}
    (found : building.context.lookup name = some value) (modifier : Option Modifier) :
    Tokenised isBracket (fun content => NumberingMarker.Accepted (Symbol.slot content).source ∨
      data.BringsToken building.context content) (Modifier.applyGiven modifier value) := by
  have recased := Recased.applyGiven modifier value
  rcases holdsHeadings_or_chosen forms labelClean clean built name value found with
    headings | ⟨tokens, chooses⟩
  · exact headings.atBrackets.recased recased
      fun _ _ isHeading isOther => .inl (isHeading.accepted isOther)
  · have inserted : Tokenised isBracket (fun _ => True) (Modifier.applyGiven modifier value) :=
      tokens.atBrackets.recased recased
        fun _ _ _ _ => trivial
    exact inserted.within.mono fun _ _ found => .inr ⟨value, modifier, chooses, found.2⟩

/-! ### Resolving -/

namespace Resolver

variable {resolver : Resolver} {data : CaseData} {context : ContextMap} {text : Text}

/-- Where the items of loops come from. -/
def source (resolver : Resolver) (data : CaseData) (context : ContextMap) : Loop.Source :=
  { settings := resolver.settings, registry := resolver.registry, data := data,
    surroundings := context.toMembers }

/-- The text that is left once loops are expanded and conditional blocks are stripped. -/
def withoutBlocks (resolver : Resolver) (data : CaseData) (context : ContextMap) (text : Text) :
    Outcome Text := do
  let expanded ← Loop.expand (resolver.source data context) resolver.settings.maxLoopPasses text
  return (Conditional.strip context resolver.settings.maxConditionalPasses expanded.text).text

/-- The tokens that a run without problems may leave: names of lists, names that only begin like the
tag of a loop, tokens in a structural placeholder of another style, and tokens with the property
`inserted`, which values bring along. -/
def Leaves (stripped : Text) (inserted : Text → Prop) (content : Text) : Prop :=
  Placeholder.IsListName content ∨ Placeholder.IsStrayLoopMark content ∨
    Placeholder.HeldByOther (Placeholder.pieces stripped) content ∨ inserted content

theorem tokenised_run {inserted : Text → Prop}
    (supplies : Loop.SuppliesClean (resolver.source data context))
    (values : ∀ name value modifier, context.lookup name = some value →
      Tokenised isBracket (fun content => NumberingMarker.Accepted (Symbol.slot content).source ∨
        inserted content) (Modifier.applyGiven modifier value))
    (labelFree : BracketFree resolver.articleLabel)
    (template : HoldsBracketsInTokens text) {resolved : Resolved}
    (ran : resolver.run data context text = .ok resolved) (noWarnings : resolved.warnings = [])
    (known : resolved.unresolved = []) :
    ∃ stripped, resolver.withoutBlocks data context text = .ok stripped ∧
      Tokenised isBracket (Leaves stripped inserted) resolved.text := by
  obtain ⟨expanded, expands, ran⟩ := Outcome.bind_eq_ok_iff.mp ran
  obtain rfl := Except.ok.inj ran
  obtain ⟨noLoopProblems, noBlockProblems⟩ := List.append_eq_nil_iff.mp noWarnings
  refine ⟨_, Outcome.bind_eq_ok_iff.mpr ⟨expanded, expands, rfl⟩, ?_⟩
  have loopsGone := Loop.tokenised_expand supplies template expands noLoopProblems
  have blocksGone := Conditional.tokenised_strip loopsGone noBlockProblems
  have filled := Placeholder.tokenised_resolve values blocksGone known
  refine (Numbering.tokenised_number labelFree filled .start).mono ?_
  rintro content clean ⟨⟨⟨⟨-, noLoop⟩, noBlock⟩, structural | held⟩ | marker | isInserted, noMarker⟩
  · rcases Placeholder.isListName_or_isStrayLoopMark clean.bracketFree structural noLoop noBlock
      noMarker with isList | isStray
    · exact .inl isList
    · exact .inr (.inl isStray)
  · exact .inr (.inr (.inl held))
  · exact absurd marker noMarker
  · exact .inr (.inr (.inr isInserted))

/-- A conditional placeholder whose only result is a token, of a name that the case lacks. -/
def tokenData : CaseData := {
  conditionalPlaceholders := [⟨.text "P", .object [("default", .text "[[X]]")]⟩]
  today := { year := 2025, month := 3, day := 14 } }

theorem isClean_tokenData : tokenData.IsClean where
  fields := nofun
  parties := nofun
  children := nofun
  collections := nofun
  clauses := nofun
  customPlaceholders := nofun
  results := by
    intro placeholder member members isObject
    obtain rfl := List.mem_singleton.mp member
    obtain rfl := Value.object.inj isObject
    refine ⟨?_, nofun⟩
    have isClean : Clean ("X" : Text) := by decide
    exact Tokenised.of_slot isClean fun _ => trivial

theorem holdsBracketsInTokens_name : HoldsBracketsInTokens "[[P]]" :=
  have isClean : Clean ("P" : Text) := by decide
  Tokenised.of_slot isClean fun _ => trivial

theorem resolveText_tokenData : ∃ resolution,
    ({} : Resolver).resolveText "0" tokenData "[[P]]" = .ok resolution ∧
      resolution.diagnostics.isOk = true ∧ resolution.text = "[[X]]" := by
  have evaluated : (({} : Resolver).resolveText "0" tokenData "[[P]]").toOption.map
      (fun resolution => (resolution.diagnostics.isOk, resolution.text)) =
        some (true, ("[[X]]" : Text)) := by
    decide +kernel
  obtain ⟨resolution, resolved, same⟩ := Option.map_eq_some_iff.mp evaluated
  obtain ⟨ok, text⟩ := Prod.mk.inj same
  exact ⟨resolution, Outcome.eq_ok_of_toOption resolved, ok, text⟩

end Resolver

end Covenant
