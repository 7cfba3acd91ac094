import Covenant.Environment
import Covenant.Text.Case

/-!
# Settings

The limits and labels of the engine, each of which a variable of the environment
may set.
-/

namespace Covenant

structure Settings where
  logLevel : Text := "INFO"
  articleLabel : Text := "Article"
  maturityAge : Int := 18
  maxConditionalPasses : Int := 10
  maxLoopPasses : Int := 10
  /-- Conditions nested deeper than this are false. -/
  maxConditionDepth : Int := 32
  maxNestedDepth : Int := 5

namespace Settings

def monthNames : List Text :=
  ["januari", "februari", "maart", "april", "mei", "juni", "juli", "augustus", "september",
    "oktober", "november", "december"]

def number (environment : Environment) (key : Text) (usual : Int) : Outcome Int :=
  match environment.valueOf? key with
  | some text => Value.integerOfText text
  | none => .ok usual

def variableNames : List Text := [
  "ASSEMBLER_LOG_LEVEL", "ASSEMBLER_ARTICLE_PREFIX", "ASSEMBLER_MATURITY_AGE",
  "ASSEMBLER_MAX_CONDITIONAL_PASSES", "ASSEMBLER_MAX_LOOP_PASSES",
  "ASSEMBLER_MAX_CONDITION_DEPTH", "ASSEMBLER_MAX_NESTED_DEPTH"]

def load (environment : Environment) : Outcome Settings := do
  environment.check
  let usual : Settings := {}
  return {
    logLevel := Text.upper ((environment.valueOf? "ASSEMBLER_LOG_LEVEL").getD usual.logLevel)
    articleLabel := (environment.valueOf? "ASSEMBLER_ARTICLE_PREFIX").getD usual.articleLabel
    maturityAge := ← number environment "ASSEMBLER_MATURITY_AGE" usual.maturityAge
    maxConditionalPasses :=
      ← number environment "ASSEMBLER_MAX_CONDITIONAL_PASSES" usual.maxConditionalPasses
    maxLoopPasses := ← number environment "ASSEMBLER_MAX_LOOP_PASSES" usual.maxLoopPasses
    maxConditionDepth :=
      ← number environment "ASSEMBLER_MAX_CONDITION_DEPTH" usual.maxConditionDepth
    maxNestedDepth := ← number environment "ASSEMBLER_MAX_NESTED_DEPTH" usual.maxNestedDepth }

end Settings

end Covenant
