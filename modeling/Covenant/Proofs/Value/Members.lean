import Covenant.Value.Basic
import Mathlib.Data.List.Induction

/-!
# Members made of pairs

Pairs become the members of an object one after the other; a name that is there takes the new value.
So every member is one of the pairs, and no name of the pairs is lost.
-/

namespace Covenant.Members

variable {members : Members} {pairs : List (Text × Value)} {name : Text} {value : Value}
  {pair : Text × Value}

theorem mem_of_mem_insert (member : pair ∈ insert name value members) :
    pair ∈ members ∨ pair = (name, value) := by
  induction members with
  | nil => exact .inr (List.mem_singleton.mp member)
  | cons first members ih =>
      rw [insert] at member
      split at member
      · rcases List.mem_cons.mp member with isNew | later
        · exact .inr isNew
        · exact .inl (List.mem_cons_of_mem first later)
      · rcases List.mem_cons.mp member with rfl | later
        · exact .inl List.mem_cons_self
        · exact (ih later).imp_left (List.mem_cons_of_mem first)

theorem name_mem_insert : name ∈ (insert name value members).map (·.1) := by
  induction members with
  | nil => exact List.mem_singleton_self name
  | cons first members ih =>
      rw [insert]
      split
      · exact List.mem_cons_self
      · exact List.mem_cons_of_mem first.1 ih

theorem names_subset_insert : members.map (·.1) ⊆ (insert name value members).map (·.1) := by
  induction members with
  | nil => exact List.nil_subset _
  | cons first members ih =>
      rw [insert]
      split
      · rename_i same
        rw [List.map_cons, List.map_cons, same]
        exact List.Subset.refl _
      · exact List.cons_subset_cons first.1 ih

theorem mem_of_mem_ofPairs (member : pair ∈ ofPairs pairs) : pair ∈ pairs := by
  induction pairs using List.reverseRecOn with
  | nil => exact member
  | append_singleton pairs last ih =>
      rw [ofPairs, List.foldl_append] at member
      rcases mem_of_mem_insert member with earlier | isLast
      · exact List.mem_append_left _ (ih earlier)
      · exact List.mem_append_right _ (List.mem_singleton.mpr isLast)

theorem name_mem_ofPairs (member : pair ∈ pairs) : pair.1 ∈ (ofPairs pairs).map (·.1) := by
  induction pairs using List.reverseRecOn with
  | nil => cases member
  | append_singleton pairs last ih =>
      rw [ofPairs, List.foldl_append]
      rcases List.mem_append.mp member with earlier | isLast
      · exact names_subset_insert (ih earlier)
      · rw [List.mem_singleton.mp isLast]
        exact name_mem_insert

theorem insert_of_not_mem (absent : name ∉ members.map (·.1)) :
    insert name value members = members ++ [(name, value)] := by
  induction members with
  | nil => rfl
  | cons first members ih =>
      rw [List.map_cons, List.mem_cons, not_or] at absent
      rw [insert, if_neg (Ne.symm absent.1), ih absent.2, List.cons_append]

/-- Pairs of different names are the members themselves. -/
theorem ofPairs_eq_self (distinct : (pairs.map (·.1)).Nodup) : ofPairs pairs = pairs := by
  induction pairs using List.reverseRecOn with
  | nil => rfl
  | append_singleton pairs last ih =>
      rw [List.map_append, List.nodup_append] at distinct
      obtain ⟨earlier, -, apart⟩ := distinct
      have absent : last.1 ∉ pairs.map (·.1) := fun member =>
        apart last.1 member last.1 (List.mem_singleton_self _) rfl
      rw [ofPairs, List.foldl_append, ← ofPairs, ih earlier]
      exact insert_of_not_mem absent

end Covenant.Members
