import Covenant.Context.Basic
import Covenant.Template.Piece

/-!
# Placeholders in values

The result of a rule may hold placeholders, whose values may hold placeholders
again.  They are replaced in passes, at most as many as the depth allows.
-/

namespace Covenant.Nested

def recognise : Recogniser Text := fun _ text =>
  enclosed? "[[" "]]" (fun c => !isBracket c) text

def value? (context : ContextMap) (name : Text) : Option Text := context.lookup (Text.trim name)

def isChanged (context : ContextMap) (pieces : List (Piece Text)) : Bool :=
  pieces.any fun
    | .plain _ => false
    | .token name _ => (value? context name).isSome

/-- One pass: every name that the context has is replaced. -/
def replace (context : ContextMap) (pieces : List (Piece Text)) : Text :=
  Piece.substitute (fun name source => (value? context name).getD source) pieces

/-- Repeats the pass until nothing is replaced, at most `depth` times. -/
def resolve (context : ContextMap) : Nat → Text → Text
  | 0, text => text
  | depth + 1, text =>
      let pieces := Piece.cut recognise text
      if isChanged context pieces then resolve context depth (replace context pieces) else text

end Covenant.Nested
