import Covenant.Text.Basic

/-!
# Pieces of a text

A pass over a template looks for tokens of one kind.  At every place, from left
to right, a recogniser says whether a token starts there; what is no token is
kept character by character.  The sources of the pieces put together are the
text again.
-/

namespace Covenant

inductive Piece (α : Type) where
  | plain (c : Char)
  | token (token : α) (source : Text)

/-- What the character before a place and the text from there on say about a token at that
place: the token and its length.  A token has at least one character. -/
abbrev Recogniser (α : Type) := Option Char → Text → Option (α × Nat)

namespace Piece

def source {α : Type} : Piece α → Text
  | plain c => [c]
  | token _ source => source

/-- Cuts a text into pieces after skipping the characters of a token already found. -/
def cutAfter {α : Type} (recognise : Recogniser α) : Option Char → Nat → Text → List (Piece α)
  | _, _, [] => []
  | _, skip + 1, c :: cs => cutAfter recognise (some c) skip cs
  | before, 0, c :: cs =>
      match recognise before (c :: cs) with
      | some (found, length + 1) =>
          token found ((c :: cs).take (length + 1)) :: cutAfter recognise (some c) length cs
      | _ => plain c :: cutAfter recognise (some c) 0 cs

def cut {α : Type} (recognise : Recogniser α) (text : Text) : List (Piece α) :=
  cutAfter recognise none 0 text

def substitute {α : Type} (exchange : α → Text → Text) (pieces : List (Piece α)) : Text :=
  pieces.flatMap fun
    | plain c => [c]
    | token found source => exchange found source

end Piece

structure Found (α : Type) where
  token : α
  start : Nat
  source : Text

namespace Found

def stop {α : Type} (found : Found α) : Nat := found.start + found.source.length

/-- The tokens among pieces that start at the place `start`. -/
def ofPieces {α : Type} (start : Nat) : List (Piece α) → List (Found α)
  | [] => []
  | .plain _ :: pieces => ofPieces (start + 1) pieces
  | .token token source :: pieces =>
      { token, start, source } :: ofPieces (start + source.length) pieces

end Found

/-- A token that is a run of allowed characters between an opening and a closing. -/
def enclosed? (opening closing : Text) (allowed : Char → Bool) (text : Text) :
    Option (Text × Nat) :=
  if opening.isPrefixOf text then
    let rest := text.drop opening.length
    let content := rest.takeWhile allowed
    if !content.isEmpty && closing.isPrefixOf (rest.drop content.length) then
      some (content, opening.length + content.length + closing.length)
    else none
  else none

def isBracket (c : Char) : Bool := c = '[' || c = ']'

def isLineBreak (c : Char) : Bool := c = '\r' || c = '\n'

end Covenant
