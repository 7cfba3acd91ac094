import Covenant.Proofs.Template.Filled
import Covenant.Template.Inventory

/-!
# Tokens that placeholders leave alone

A token may be found where a placeholder could stand and yet belong to another pass.  It is left
alone if every context keeps it as it is and reports nothing for it, and if the list of placeholders
does not count it.  Structural names are the only ones that are left alone.
-/

namespace Covenant

section Places

variable {α : Type} {start : Nat} {before after : List (Piece α)} {token : α} {source : Text}

/-- The tokens after some pieces are found behind the text of these. -/
theorem Found.ofPieces_append :
    ofPieces start (before ++ after) =
      ofPieces start before ++ ofPieces (start + (before.flatMap Piece.source).length) after := by
  induction before generalizing start with
  | nil => rfl
  | cons piece before ih =>
      cases piece with
      | plain c =>
          rw [List.cons_append, ofPieces, ih, ofPieces, List.flatMap_cons, Piece.source,
            List.length_append, List.length_singleton, Nat.add_assoc]
      | token token source =>
          rw [List.cons_append, ofPieces, ih, ofPieces, List.flatMap_cons, Piece.source,
            List.length_append, Nat.add_assoc, List.cons_append]

end Places

namespace PlaceholderUse

variable {text name sample : Text} {uses : List PlaceholderUse} {found : Found Placeholder}

/-- The occurrences of all placeholders. -/
def total : List PlaceholderUse → Nat
  | [] => 0
  | use :: uses => use.occurrences + total uses

theorem total_count (style : BracketStyle) (modifier : Option Modifier) :
    total (count name style modifier sample uses) = total uses + 1 := by
  induction uses with
  | nil => rfl
  | cons use uses ih =>
      rw [count]
      split
      · have more : (use.again style modifier).occurrences = use.occurrences + 1 := rfl
        rw [total, total, more, Nat.add_right_comm]
      · rw [total, total, ih, Nat.add_assoc]

theorem add_of_isStructural (structural : Placeholder.isStructural found.token.content = true) :
    add text uses found = uses := by
  rw [add, if_pos structural]

theorem total_add :
    total (add text uses found) =
      total uses + if !Placeholder.isStructural found.token.content then 1 else 0 := by
  rw [add]
  cases Placeholder.isStructural found.token.content with
  | true => rfl
  | false => exact total_count _ _

/-- Every token that is not structural is counted once. -/
theorem total_foldl_add (founds : List (Found Placeholder)) :
    total (founds.foldl (add text) uses) =
      total uses + founds.countP fun found => !Placeholder.isStructural found.token.content := by
  induction founds generalizing uses with
  | nil => rfl
  | cons found founds ih =>
      rw [List.foldl_cons, ih, total_add, List.countP_cons, Nat.add_assoc, Nat.add_comm (founds.countP _)]

end PlaceholderUse

namespace Placeholder

/-- The name that a piece is reported with. -/
def missing? (context : ContextMap) : Piece Placeholder → Option Text
  | .plain _ => none
  | .token placeholder _ =>
      match placeholder.read context with
      | .unknown name => some name
      | _ => none

theorem unresolved_eq (context : ContextMap) (text : Text) :
    unresolved context text = (pieces text).filterMap (missing? context) := rfl

/-- The token `source` between the pieces of a text is left as it is, not reported, and not listed,
whatever the context holds. -/
structure IsLeftAlone (text : Text) (before : List (Piece Placeholder)) (source : Text)
    (after : List (Piece Placeholder)) : Prop where
  resolve_eq (context : ContextMap) : resolve context text =
    (before.map (exchanged context)).flatten ++ (source ++ (after.map (exchanged context)).flatten)
  unresolved_eq (context : ContextMap) : unresolved context text =
    before.filterMap (missing? context) ++ after.filterMap (missing? context)
  ofText_eq : PlaceholderUse.ofText text =
    (Found.ofPieces 0 before ++
      Found.ofPieces ((before.flatMap Piece.source).length + source.length) after).foldl
        (PlaceholderUse.add text) []

variable {text source : Text} {before after : List (Piece Placeholder)} {placeholder : Placeholder}

theorem read_of_isStructural (context : ContextMap)
    (structural : isStructural placeholder.content = true) : placeholder.read context = .structural := by
  rw [read, if_pos structural]

theorem isLeftAlone_iff (isCut : pieces text = before ++ .token placeholder source :: after) :
    IsLeftAlone text before source after ↔ isStructural placeholder.content = true := by
  have listed : PlaceholderUse.ofText text =
      (Found.ofPieces ((before.flatMap Piece.source).length + source.length) after).foldl
        (PlaceholderUse.add text)
        (PlaceholderUse.add text ((Found.ofPieces 0 before).foldl (PlaceholderUse.add text) [])
          ⟨placeholder, (before.flatMap Piece.source).length, source⟩) := by
    rw [PlaceholderUse.ofText, isCut, Found.ofPieces_append, List.foldl_append, Found.ofPieces,
      List.foldl_cons, Nat.zero_add]
  constructor
  · intro leftAlone
    -- The token would be counted, and the total shows it.
    have totals := congrArg PlaceholderUse.total (listed.symm.trans leftAlone.ofText_eq)
    rw [List.foldl_append, PlaceholderUse.total_foldl_add, PlaceholderUse.total_foldl_add,
      PlaceholderUse.total_add] at totals
    by_contra notStructural
    rw [Bool.eq_false_iff.mpr notStructural, Bool.not_false, if_pos rfl] at totals
    omega
  · intro structural
    refine ⟨fun context => ?_, fun context => ?_, ?_⟩
    · rw [resolve_eq_flatten, isCut, List.map_append, List.flatten_append, List.map_cons,
        List.flatten_cons, exchanged, read_of_isStructural context structural]
    · rw [unresolved_eq, isCut, List.filterMap_append, List.filterMap_cons, missing?,
        read_of_isStructural context structural]
    · rw [listed, PlaceholderUse.add_of_isStructural structural, List.foldl_append]

end Placeholder

end Covenant
