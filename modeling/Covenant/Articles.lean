import Covenant.Condition.Description
import Covenant.Condition.Evaluation
import Covenant.Template.Conditional
import Covenant.Template.Loop

/-!
# Articles

The clauses that apply to a case are rendered in their order and put together
under headings with numbering markers.  A conditional clause applies when its
condition holds; one without a condition tree is decided by the test of its
condition field, and one with neither applies.  The table of contents numbers
the articles the way the numbering will.
-/

namespace Covenant

structure Scope where
  names : ContextMap
  conditionNames : ContextMap
  surroundings : Members

namespace Scope

def ofContext (context : ContextMap) : Scope := ⟨context, context, context.toMembers⟩

/-- In a plain object only conditions see names under their other spelling. -/
def ofMembers (members : Members) : Scope :=
  ⟨ContextMap.ofMembers members, ContextMap.ofObject members, members⟩

end Scope

structure Resolved where
  text : Text
  warnings : List Text := []
  unresolved : List Text := []

structure RenderedClause where
  clause : Clause
  title : Text
  body : Text

namespace Articles

def applies (settings : Settings) (scope : Scope) (clause : Clause) : Outcome Bool := do
  if !clause.isConditional then return true
  else if clause.conditionError.any (!·.isEmpty) then return false
  else if clause.condition.isFilled then
    Condition.evaluate settings.maxConditionDepth scope.conditionNames clause.condition
  else if ← Clause.isWritten clause.conditionField then
    return Conditional.test scope.names (← clause.conditionField.asText)
  else return true

/-- The clauses that apply, by order; clauses of one order stay as they were. -/
def select (settings : Settings) (scope : Scope) (clauses : List Clause) : Outcome (List Clause) := do
  let selected ← clauses.filterM (applies settings scope)
  return selected.mergeSort fun first second => first.order ≤ second.order

/-- The text in a value of a clause, which has to be a text. -/
def textOf (value : Value) : Outcome Text :=
  match value with
  | .text content => .ok content
  | other => .error (.notIterable other.kindName)

/-- The text of a clause with loops, conditional blocks and placeholders resolved. -/
def renderText (source : Loop.Source) (scope : Scope) (clause : Clause) : Outcome Resolved := do
  let text ← textOf (← clause.effectiveText)
  let expanded ← Loop.expand { source with surroundings := scope.surroundings }
    source.settings.maxLoopPasses text
  let stripped := Conditional.strip scope.names source.settings.maxConditionalPasses expanded.text
  return {
    text := Text.trim (Placeholder.resolve scope.names stripped.text)
    warnings := expanded.problems ++ stripped.problems
    unresolved := Placeholder.unresolved scope.names stripped.text }

/-- The clauses that were rendered, with everything that remained open in them. -/
structure Rendering where
  clauses : List RenderedClause := []
  warnings : List Text := []
  unresolved : List Text := []

/-- Renders clauses one after the other; a clause without text is left out. -/
def renderEach (source : Loop.Source) (scope : Scope) : List Clause → Outcome Rendering
  | [] => .ok {}
  | clause :: clauses => do
      let body ← renderText source scope clause
      if body.text.isEmpty then
        let rest ← renderEach source scope clauses
        return { rest with
          warnings := body.warnings ++ rest.warnings
          unresolved := body.unresolved ++ rest.unresolved }
      else
        let title ← textOf (← clause.effectiveTitle)
        let rest ← renderEach source scope clauses
        return {
          clauses :=
            ⟨clause, Text.trim (Placeholder.resolve scope.names title), body.text⟩ :: rest.clauses
          warnings := body.warnings ++ rest.warnings
          unresolved :=
            body.unresolved ++ Placeholder.unresolved scope.names title ++ rest.unresolved }

def render (source : Loop.Source) (scope : Scope) (clauses : List Clause) : Outcome Rendering := do
  renderEach source scope (← select source.settings scope clauses)

def headingMarker : HeadingNumbering → Text
  | .newNumber => "[[ARTICLE]] "
  | .continued => "[[SUBARTICLE]] "
  | .unnumbered => []

def heading (rendered : RenderedClause) : Text :=
  Text.trim (headingMarker rendered.clause.numbering ++ rendered.title)

def block (rendered : RenderedClause) : Text :=
  if (heading rendered).isEmpty then rendered.body
  else heading rendered ++ '\n' :: rendered.body

/-- The clauses with a blank line between them. -/
def assemble (rendered : List RenderedClause) : Text :=
  Text.joinWith "\n\n" (rendered.map block)

def contentsHeading : Text := "Inhoudsopgave"

/-- The titles of the clauses that take a new number. -/
def numberedTitles (rendered : List RenderedClause) : List Text :=
  (rendered.filter (·.clause.numbering == .newNumber)).map (·.title)

/-- The lines of the table of contents from a number on. -/
def contentsLines (label : Text) : Nat → List Text → List Text
  | _, [] => []
  | number, title :: titles =>
      (label ++ ' ' :: Text.ofNat number ++ ": " ++ title) :: contentsLines label (number + 1) titles

/-- The table of contents; empty when no article has a number. -/
def contents (label heading : Text) (rendered : List RenderedClause) : Text :=
  match numberedTitles rendered with
  | [] => []
  | titles => Text.unlines (heading :: contentsLines label 1 titles)

end Articles

end Covenant
