import Covenant.Proofs.Condition.Graph
import Mathlib.Data.List.Forall2

/-!
# Shared conditions

It makes no difference whether several groups refer to one node or each to a copy of its own, and
in which order a group lists its conditions.  A graph of copies must keep the cycles of the
original: a node that is a copy of a group around it has to be that group.
-/

namespace Covenant

open Condition

def ConditionNode.mapChildren (number : Nat → Nat) : ConditionNode → ConditionNode
  | comparison leaf => comparison leaf
  | group operator children => group operator (children.map number)
  | value stored => value stored

/-- Nodes that differ in the order of their references at most. -/
inductive ConditionNode.Reordered : ConditionNode → ConditionNode → Prop where
  | comparison (leaf : Comparison) : Reordered (comparison leaf) (comparison leaf)
  | group (operator : Value) {children others : List Nat} (permuted : children.Perm others) :
      Reordered (group operator children) (group operator others)
  | value (stored : Value) : Reordered (value stored) (value stored)

namespace ConditionGraph

/-- The nodes to which a node refers. -/
def childrenOf (graph : ConditionGraph) (index : Nat) : List Nat :=
  match graph[index]? with
  | some (.group _ children) => children
  | _ => []

/-- A way from the root to a node through the groups that lead there, without entering any group
twice. -/
inductive Trail (graph : ConditionGraph) (root : Nat) : List Nat → Nat → Prop where
  | start : Trail graph root [] root
  | step {ancestors : List Nat} {index child : Nat} (trail : Trail graph root ancestors index)
      (entered : index ∉ ancestors) (member : child ∈ graph.childrenOf index) :
      Trail graph root (index :: ancestors) child

/-- Every node of a graph is a copy of a node of another graph. -/
def IsCopy (copies originals : ConditionGraph) (originalOf : Nat → Nat) : Prop :=
  ∀ index, originals[originalOf index]? = copies[index]?.map (ConditionNode.mapChildren originalOf)

/-- A copy of a group around a node is one of the groups around it. -/
def KeepsCycles (copies : ConditionGraph) (originalOf : Nat → Nat) (root : Nat) : Prop :=
  ∀ ancestors index, Trail copies root ancestors index →
    originalOf index ∈ ancestors.map originalOf → index ∈ ancestors

/-- The trails of a graph are among the given ones if these are closed under steps. -/
theorem Trail.mem_of_closed {graph : ConditionGraph} {root : Nat} {trails : List (List Nat × Nat)}
    (start : ([], root) ∈ trails)
    (closed : ∀ trail ∈ trails, trail.2 ∉ trail.1 → ∀ child ∈ graph.childrenOf trail.2,
      (trail.2 :: trail.1, child) ∈ trails)
    {ancestors : List Nat} {index : Nat} (trail : Trail graph root ancestors index) :
    (ancestors, index) ∈ trails := by
  induction trail with
  | start => exact start
  | step _ entered member ih => exact closed _ ih entered _ member

theorem IsCopy.childrenOf {copies originals : ConditionGraph} {originalOf : Nat → Nat}
    (isCopy : IsCopy copies originals originalOf) (index : Nat) :
    originals.childrenOf (originalOf index) = (copies.childrenOf index).map originalOf := by
  rw [ConditionGraph.childrenOf, ConditionGraph.childrenOf, isCopy index]
  rcases copies[index]? with _ | ⟨leaf⟩ | ⟨operator, children⟩ | stored <;> rfl

/-- Copies of a graph in which references lead to later nodes have no cycles to keep. -/
theorem keepsCycles_of_ascending {copies originals : ConditionGraph} {originalOf : Nat → Nat}
    (isCopy : IsCopy copies originals originalOf)
    (ascending : ∀ index, ∀ child ∈ originals.childrenOf index, index < child) (root : Nat) :
    KeepsCycles copies originalOf root := by
  have later {ancestors : List Nat} {index : Nat} (trail : Trail copies root ancestors index) :
      ∀ ancestor ∈ ancestors, originalOf ancestor < originalOf index := by
    induction trail with
    | start => simp
    | @step ancestors index child trail entered member ih =>
        have below : originalOf index < originalOf child := by
          apply ascending
          rw [isCopy.childrenOf]
          exact List.mem_map_of_mem member
        intro ancestor inAncestors
        rcases List.mem_cons.mp inAncestors with rfl | inAncestors
        · exact below
        · exact Nat.lt_trans (ih ancestor inAncestors) below
  intro ancestors index trail recurs
  obtain ⟨ancestor, member, same⟩ := List.mem_map.mp recurs
  have before := later trail ancestor member
  omega

variable {maxDepth : Int} {context : ContextMap}

theorem value_of_copy {copies originals : ConditionGraph} {originalOf : Nat → Nat}
    (isCopy : IsCopy copies originals originalOf) {root : Nat}
    (keeps : KeepsCycles copies originalOf root) {levels depth : Nat}
    (same : levels = levelsWithin (maxDepth - depth)) {ancestors : List Nat} {index : Nat}
    (trail : Trail copies root ancestors index) :
    value maxDepth copies context depth ancestors index =
      value maxDepth originals context depth (ancestors.map originalOf) (originalOf index) := by
  induction levels generalizing depth ancestors index with
  | zero => rw [value, value, if_neg (levelsWithin_eq_zero same), if_neg (levelsWithin_eq_zero same)]
  | succ levels ih =>
      obtain ⟨within, sameBelow⟩ := levelsWithin_eq_succ same
      rw [value, value, if_pos within, if_pos within, isCopy index]
      rcases node : copies[index]? with _ | ⟨leaf⟩ | ⟨operator, children⟩ | stored
      · rfl
      · rfl
      · by_cases cyclic : index ∈ ancestors
        · simp [cyclic, ConditionNode.mapChildren, List.mem_map_of_mem cyclic]
        · have acyclic : originalOf index ∉ ancestors.map originalOf :=
            fun recurs => cyclic (keeps ancestors index trail recurs)
          simp only [Option.map_some, ConditionNode.mapChildren, cyclic, acyclic, if_false,
            List.map_map]
          congr 1
          apply List.map_congr_left
          intro child member
          exact ih sameBelow (.step trail cyclic (by simpa [childrenOf, node] using member))
      · rfl

theorem rootValue_of_copy {copies originals : ConditionGraph} {originalOf : Nat → Nat}
    (isCopy : IsCopy copies originals originalOf) {root : Nat}
    (keeps : KeepsCycles copies originalOf root) :
    rootValue maxDepth copies context root = rootValue maxDepth originals context (originalOf root) := by
  have levels : levelsWithin maxDepth = levelsWithin (maxDepth - (0 : Nat)) := by simp
  have fromRoot : value maxDepth copies context 0 [] root =
      value maxDepth originals context 0 [] (originalOf root) :=
    value_of_copy isCopy keeps levels .start
  rw [rootValue, rootValue, isCopy root]
  rcases copies[root]? with _ | ⟨leaf⟩ | ⟨operator, children⟩ | stored
  · exact fromRoot
  · exact fromRoot
  · exact fromRoot
  · cases stored with
    | object members => rfl
    | _ => exact fromRoot

theorem groupValue_perm (operator : Text) {truths others : List Bool} (permuted : truths.Perm others) :
    groupValue operator truths = groupValue operator others := by
  have sameEmpty : truths.isEmpty = others.isEmpty := by
    rw [Bool.eq_iff_iff, List.isEmpty_iff, List.isEmpty_iff]
    exact ⟨fun empty => (empty ▸ permuted).nil_eq.symm, fun empty => (empty ▸ permuted).eq_nil⟩
  rw [groupValue, groupValue, permuted.all_eq, permuted.any_eq, sameEmpty]

/-- Two graphs have nodes that differ in the order of their references at most. -/
def Reordered (graph other : ConditionGraph) : Prop :=
  List.Forall₂ ConditionNode.Reordered graph other

theorem Reordered.getElem? {graph other : ConditionGraph} (reordered : Reordered graph other)
    (index : Nat) : Option.Rel ConditionNode.Reordered graph[index]? other[index]? := by
  induction reordered generalizing index with
  | nil => exact .none
  | cons sameNode _ ih =>
      cases index with
      | zero => exact .some sameNode
      | succ index => exact ih index

theorem value_of_reordered {graph other : ConditionGraph} (reordered : Reordered graph other)
    {levels depth : Nat} (same : levels = levelsWithin (maxDepth - depth)) (ancestors : List Nat)
    (index : Nat) :
    value maxDepth graph context depth ancestors index =
      value maxDepth other context depth ancestors index := by
  induction levels generalizing depth ancestors index with
  | zero => rw [value, value, if_neg (levelsWithin_eq_zero same), if_neg (levelsWithin_eq_zero same)]
  | succ levels ih =>
      obtain ⟨within, sameBelow⟩ := levelsWithin_eq_succ same
      rw [value, value, if_pos within, if_pos within]
      have sameNode := reordered.getElem? index
      generalize graph[index]? = node, other[index]? = otherNode at sameNode ⊢
      cases sameNode with
      | none => rfl
      | some sameNode =>
          cases sameNode with
          | comparison leaf => rfl
          | value stored => rfl
          | @group operator children others permuted =>
              by_cases cyclic : index ∈ ancestors
              · simp [cyclic]
              · have sameTruths : children.map (value maxDepth graph context (depth + 1)
                    (index :: ancestors)) = children.map (value maxDepth other context (depth + 1)
                      (index :: ancestors)) :=
                  List.map_congr_left fun child _ => ih sameBelow _ child
                simp only [cyclic, if_false, sameTruths]
                exact groupValue_perm _ (permuted.map _)

theorem rootValue_of_reordered {graph other : ConditionGraph} (reordered : Reordered graph other)
    (root : Nat) :
    rootValue maxDepth graph context root = rootValue maxDepth other context root := by
  have levels : levelsWithin maxDepth = levelsWithin (maxDepth - (0 : Nat)) := by simp
  have fromRoot : value maxDepth graph context 0 [] root =
      value maxDepth other context 0 [] root :=
    value_of_reordered reordered levels [] root
  rw [rootValue, rootValue]
  have sameNode := reordered.getElem? root
  generalize graph[root]? = node, other[root]? = otherNode at sameNode ⊢
  cases sameNode with
  | none => exact fromRoot
  | some sameNode =>
      cases sameNode with
      | comparison leaf => exact fromRoot
      | group operator permuted => exact fromRoot
      | value stored =>
          cases stored with
          | object members => rfl
          | _ => exact fromRoot

/-! ## Evaluation -/

theorem IsCopy.returns {copies originals : ConditionGraph} {originalOf : Nat → Nat}
    (isCopy : IsCopy copies originals originalOf) (returns : originals.Returns context) :
    copies.Returns context := by
  intro leaf member
  obtain ⟨index, node⟩ := List.mem_iff_getElem?.mp member
  have original := isCopy index
  rw [node, Option.map_some] at original
  exact returns leaf (List.mem_of_getElem? original)

theorem Reordered.returns {graph other : ConditionGraph} (reordered : Reordered graph other)
    (returns : graph.Returns context) : other.Returns context := by
  intro leaf member
  obtain ⟨index, node⟩ := List.mem_iff_getElem?.mp member
  have sameNode := reordered.getElem? index
  rw [node] at sameNode
  generalize first : graph[index]? = node at sameNode
  cases sameNode with
  | some sameNode =>
      cases sameNode
      exact returns leaf (List.mem_of_getElem? first)

theorem IsCopy.rootReturns {copies originals : ConditionGraph} {originalOf : Nat → Nat}
    (isCopy : IsCopy copies originals originalOf) {root : Nat}
    (rootReturns : originals.RootReturns context (originalOf root)) :
    copies.RootReturns context root := by
  intro stored condition leaf node read has
  apply rootReturns stored condition leaf _ read has
  rw [isCopy root, node]
  rfl

theorem Reordered.rootReturns {graph other : ConditionGraph} (reordered : Reordered graph other)
    {root : Nat} (rootReturns : graph.RootReturns context root) :
    other.RootReturns context root := by
  intro stored condition leaf node read has
  have sameNode := reordered.getElem? root
  rw [node] at sameNode
  generalize first : graph[root]? = node at sameNode
  cases sameNode with
  | some sameNode =>
      cases sameNode
      exact rootReturns stored condition leaf first read has

def married : Comparison := { field := .text "status", operand := .text "gehuwd" }

def marriedContext : ContextMap := ContextMap.insert {} "status" "Gehuwd"

/-- A group with a shared child that refers back to the group. -/
def sharedGraph : ConditionGraph := [
  .group (.text "and") [1, 1, 2], .group (.text "OR") [0, 2], .comparison married]

/-- The same with a child for every reference, and a comparison for every reference. -/
def separateGraph : ConditionGraph := [
  .group (.text "and") [1, 2, 3], .group (.text "OR") [0, 4], .group (.text "OR") [0, 5],
  .comparison married, .comparison married, .comparison married]

def sharedOf : Nat → Nat
  | 0 => 0
  | 1 => 1
  | 2 => 1
  | 3 => 2
  | 4 => 2
  | 5 => 2
  | index + 6 => index + 6

def turnedGraph : ConditionGraph := [
  .group (.text "and") [2, 1, 1], .group (.text "OR") [2, 0], .comparison married]

theorem separateGraph_isCopy : IsCopy separateGraph sharedGraph sharedOf := by
  intro index
  rcases index with _ | _ | _ | _ | _ | _ | index <;> rfl

theorem separateGraph_keepsCycles : KeepsCycles separateGraph sharedOf 0 := by
  intro ancestors index trail recurs
  have keeps : ∀ trail ∈ [([], 0), ([0], 1), ([0], 2), ([0], 3), ([1, 0], 0), ([1, 0], 4),
      ([2, 0], 0), ([2, 0], 5)], sharedOf trail.2 ∈ trail.1.map sharedOf → trail.2 ∈ trail.1 := by
    decide
  exact keeps (ancestors, index) (trail.mem_of_closed (by decide) (by decide)) recurs

theorem turnedGraph_reordered : Reordered sharedGraph turnedGraph :=
  .cons (.group _ (by decide)) (.cons (.group _ (by decide)) (.cons (.comparison _) .nil))

end ConditionGraph

end Covenant
