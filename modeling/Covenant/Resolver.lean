import Covenant.Case.Context
import Covenant.Template.Numbering

/-!
# Resolving templates

A template is resolved against a context that is built once: loops are expanded,
conditional blocks are stripped, placeholders are replaced, and last the
articles are numbered.  The regions of a document share the context; each is
resolved, and numbered, on its own.
-/

namespace Covenant

structure Resolver where
  settings : Settings := {}
  registry : Registry := .usual
  /-- The label of numbered articles, when it is not the usual one. -/
  label : Option Text := none

structure Resolution where
  text : Text
  diagnostics : Diagnostics

structure DocumentResolution where
  regions : List (Text × Text)
  diagnostics : Diagnostics
  context : ContextMap

/-- The name of the region with the text between headers and footers. -/
def bodyRegion : Text := "body"

def DocumentResolution.body (resolution : DocumentResolution) : Text :=
  (resolution.regions.lookup bodyRegion).getD []

namespace Resolver

def articleLabel (resolver : Resolver) : Text := resolver.label.getD resolver.settings.articleLabel

def run (resolver : Resolver) (data : CaseData) (context : ContextMap) (text : Text) :
    Outcome Resolved := do
  let source : Loop.Source :=
    { settings := resolver.settings, registry := resolver.registry, data,
      surroundings := context.toMembers }
  let expanded ← Loop.expand source resolver.settings.maxLoopPasses text
  let stripped :=
    Conditional.strip context resolver.settings.maxConditionalPasses expanded.text
  let filled := Placeholder.resolve context stripped.text
  return {
    text := (Numbering.number resolver.articleLabel .start filled).1
    warnings := expanded.problems ++ stripped.problems
    unresolved := Placeholder.unresolved context stripped.text }

def record (diagnostics : Diagnostics) (resolved : Resolved) : Diagnostics :=
  (diagnostics.warnAll resolved.warnings).addAllUnresolved resolved.unresolved

def caseContext (resolver : Resolver) (data : CaseData) (diagnostics : Diagnostics) :
    Outcome CaseContext.Building := do
  let building ←
    CaseContext.build resolver.settings resolver.registry resolver.articleLabel data diagnostics
  return { building with context := building.context.freeze }

/-- Names as they are given, with their other spellings, in a context of its own. -/
def givenContext (names : ContextMap) : ContextMap := names.thaw.withAliases.freeze

def resolveText (resolver : Resolver) (correlationId : Text) (data : CaseData) (text : Text) :
    Outcome Resolution := do
  let building ← resolver.caseContext data { correlationId }
  let resolved ← resolver.run data building.context text
  return ⟨resolved.text, record building.diagnostics resolved⟩

/-- Resolves a text with given names; the case is only searched for collections. -/
def resolveTextWith (resolver : Resolver) (correlationId : Text) (data : CaseData)
    (names : ContextMap) (text : Text) : Outcome Resolution := do
  let resolved ← resolver.run data (givenContext names) text
  return ⟨resolved.text, record { correlationId } resolved⟩

def resolveRegions (resolver : Resolver) (data : CaseData) (context : ContextMap) :
    Diagnostics → List (Text × Text) → Outcome (List (Text × Text) × Diagnostics)
  | diagnostics, [] => .ok ([], diagnostics)
  | diagnostics, (name, text) :: regions => do
      let resolved ← resolver.run data context text
      let (rest, diagnostics) ←
        resolveRegions resolver data context (record diagnostics resolved) regions
      return ((name, resolved.text) :: rest, diagnostics)

def resolveDocument (resolver : Resolver) (correlationId : Text) (data : CaseData)
    (regions : List (Text × Text)) : Outcome DocumentResolution := do
  let building ← resolver.caseContext data { correlationId }
  let (regions, diagnostics) ←
    resolver.resolveRegions data building.context building.diagnostics regions
  return { regions, diagnostics, context := building.context }

end Resolver

end Covenant
