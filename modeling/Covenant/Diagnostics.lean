import Covenant.MessageTemplate

/-!
# Diagnostics

What went wrong while a request was resolved: warnings in order, and how often
each name stayed unresolved, in the order in which the names first occurred.
-/

namespace Covenant

structure Diagnostics where
  correlationId : Text
  warnings : List Text := []
  unresolved : List (Text × Nat) := []

def countName (name : Text) : List (Text × Nat) → List (Text × Nat)
  | [] => [(name, 1)]
  | (other, count) :: rest =>
      if other = name then (other, count + 1) :: rest else (other, count) :: countName name rest

namespace Diagnostics

def warn (diagnostics : Diagnostics) (warning : Text) : Diagnostics :=
  { diagnostics with warnings := diagnostics.warnings ++ [warning] }

def warnAll (diagnostics : Diagnostics) (warnings : List Text) : Diagnostics :=
  { diagnostics with warnings := diagnostics.warnings ++ warnings }

/-- Adds a warning from a template; without arguments the template is the warning. -/
def warnTemplate (diagnostics : Diagnostics) (template : Text) (arguments : List Value) :
    Outcome Diagnostics :=
  if arguments.isEmpty then .ok (diagnostics.warn template)
  else (MessageTemplate.render template arguments).map diagnostics.warn

def addUnresolved (diagnostics : Diagnostics) (name : Text) : Diagnostics :=
  { diagnostics with unresolved := countName name diagnostics.unresolved }

def addAllUnresolved (diagnostics : Diagnostics) (names : List Text) : Diagnostics :=
  names.foldl addUnresolved diagnostics

def unresolvedCount (diagnostics : Diagnostics) : Nat :=
  diagnostics.unresolved.foldl (fun count (_, uses) => count + uses) 0

def isOk (diagnostics : Diagnostics) : Bool :=
  diagnostics.warnings.isEmpty && diagnostics.unresolved.isEmpty

end Diagnostics

end Covenant
