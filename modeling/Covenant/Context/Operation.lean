import Covenant.Context.Basic

/-!
# Operations on contexts

A session holds a current context and another one, and performs operations that
answer with a value or fail.  Keys are arbitrary values, and those that are not
texts fail; an operation that fails leaves the contexts as they were.
-/

namespace Covenant

namespace ContextMap

def checkOpen (context : ContextMap) : Outcome Unit :=
  if context.frozen then .error .frozenContext else .ok ()

/-- The text of a name that has to be present. -/
def get (context : ContextMap) (name : Text) : Outcome Text :=
  match context.lookup name with
  | some text => .ok text
  | none => .error (.unknownName (Text.lower name))

def set (context : ContextMap) (key value : Value) : Outcome ContextMap := do
  context.checkOpen
  return context.insert (← key.asText) value.stored

def remove (context : ContextMap) (key : Value) : Outcome ContextMap := do
  context.checkOpen
  let name ← key.asText
  let _ ← context.get name
  return context.erase name

def hasKey (context : ContextMap) : Value → Bool
  | .text name => context.contains name
  | _ => false

/-- Writes a value unless the key is present; also says whether it was written. -/
def setDefault (context : ContextMap) (key value : Value) : Outcome (Bool × ContextMap) :=
  if context.hasKey key then .ok (false, context)
  else (context.set key value).map (true, ·)

/-- Adds the aliases; also gives their number.  A frozen context must have them already. -/
def registerAliases (context : ContextMap) : Outcome (Nat × ContextMap) :=
  let aliased := context.withAliases
  let added := aliased.size - context.size
  if added = 0 then .ok (0, context) else do
    context.checkOpen
    return (added, aliased)

def update (context : ContextMap) (members : Members) : Outcome ContextMap :=
  if members.isEmpty then .ok context else do
    context.checkOpen
    return context.insertAll members

/-- Takes out the first entry. -/
def popFirst (context : ContextMap) : Outcome ((Text × Text) × ContextMap) :=
  match context.items with
  | [] => .error .emptyContext
  | (name, text) :: _ => do
      context.checkOpen
      return ((name, text), context.erase name)

/-- Takes out the text of a key; a missing key gives the default, if there is one. -/
def pop (context : ContextMap) (key : Value) (default : Option Value) :
    Outcome (Value × ContextMap) := do
  let name ← key.asText
  match context.lookup name, default with
  | some text, _ => return (.text text, ← context.remove key)
  | none, some value => return (value, context)
  | none, none => .error (.unknownName (Text.lower name))

/-- The text of a key, or the value after writing it to a key that is missing. -/
def getOrSet (context : ContextMap) (key value : Value) : Outcome (Value × ContextMap) := do
  let name ← key.asText
  match context.lookup name with
  | some text => return (.text text, context)
  | none => return (value, ← context.set key value)

def clear (context : ContextMap) : Outcome ContextMap :=
  if context.entries.isEmpty then .ok context else do
    context.checkOpen
    return { context with entries := [] }

end ContextMap

inductive ContextOperation where
  | get (key : Value)
  | set (key value : Value)
  | remove (key : Value)
  | contains (key : Value)
  | size
  | names
  | shown
  | isFrozen
  | freeze
  | copy
  | swap
  | lookup (key : Value)
  | setDefault (key value : Value)
  | registerAliases
  | update (members : Members)
  | pop (key : Value) (default : Option Value)
  | popFirst
  | getOrSet (key value : Value)
  | clear

structure ContextSession where
  current : ContextMap
  other : ContextMap := {}

namespace ContextSession

def withCurrent (session : ContextSession) (context : ContextMap) : ContextSession :=
  { session with current := context }

/-- Performs an operation: its answer, and the session after it. -/
def perform (session : ContextSession) : ContextOperation → Outcome (Value × ContextSession)
  | .get key => do return (.text (← session.current.get (← key.asText)), session)
  | .set key value => do return (.null, session.withCurrent (← session.current.set key value))
  | .remove key => do return (.null, session.withCurrent (← session.current.remove key))
  | .contains key => .ok (.bool (session.current.hasKey key), session)
  | .size => .ok (.int session.current.size, session)
  | .names => .ok (.list (session.current.names.map .text), session)
  | .shown => .ok (.text session.current.shown, session)
  | .isFrozen => .ok (.bool session.current.frozen, session)
  | .freeze => .ok (.bool true, session.withCurrent session.current.freeze)
  | .copy => .ok (.null, { current := session.current.thaw, other := session.current })
  | .swap => .ok (.null, { current := session.other, other := session.current })
  | .lookup key => do
      let name ← key.asText
      return (((session.current.lookup name).map Value.text).getD .null, session)
  | .setDefault key value => do
      let (added, context) ← session.current.setDefault key value
      return (.bool added, session.withCurrent context)
  | .registerAliases => do
      let (added, context) ← session.current.registerAliases
      return (.int added, session.withCurrent context)
  | .update members => do return (.null, session.withCurrent (← session.current.update members))
  | .pop key default => do
      let (value, context) ← session.current.pop key default
      return (value, session.withCurrent context)
  | .popFirst => do
      let ((name, text), context) ← session.current.popFirst
      return (.list [.text name, .text text], session.withCurrent context)
  | .getOrSet key value => do
      let (value, context) ← session.current.getOrSet key value
      return (value, session.withCurrent context)
  | .clear => do return (.null, session.withCurrent (← session.current.clear))

/-- The session after an operation; one that fails changes nothing. -/
def after (session : ContextSession) (operation : ContextOperation) : ContextSession :=
  match session.perform operation with
  | .ok (_, next) => next
  | .error _ => session

end ContextSession

end Covenant
