import Covenant.Proofs.Template.Layers
import Mathlib.Data.List.Nodup
import Mathlib.Data.List.Perm.Basic
import Mathlib.Tactic.Tauto

/-!
# The tags of layers

Every tag of a nest or of layers is an opening tag or a closing tag of exactly one block, or a
stray, or never closed.  Between a stray and the open tag around it stand whole blocks and other
strays only.  None of this needs the strays to be strays for a scan, so it also holds of what a
pass leaves, where a closing tag may have come to stand in a block that it fits.
-/

namespace Covenant

/-- All tags that are opened are closed within the same row. -/
def Balanced (pairs : List (Tag × Tag)) (tags : List Tag) : Prop :=
  ∀ tag ∈ tags, tag.isOpen = true → ∃ closing ∈ tags, (tag, closing) ∈ pairs

namespace Balanced

variable {pairs more : List (Tag × Tag)} {first second tags : List Tag}

theorem append (balancedFirst : Balanced pairs first) (balancedSecond : Balanced pairs second) :
    Balanced pairs (first ++ second) := by
  intro tag member isOpen
  rcases List.mem_append.mp member with member | member
  · obtain ⟨closing, among, pair⟩ := balancedFirst tag member isOpen
    exact ⟨closing, by simp [among], pair⟩
  · obtain ⟨closing, among, pair⟩ := balancedSecond tag member isOpen
    exact ⟨closing, by simp [among], pair⟩

theorem mono (balanced : Balanced pairs tags) (included : ∀ pair ∈ pairs, pair ∈ more) :
    Balanced more tags := by
  intro tag member isOpen
  obtain ⟨closing, among, pair⟩ := balanced tag member isOpen
  exact ⟨closing, among, included _ pair⟩

theorem of_closings (closings : ∀ tag ∈ tags, tag.isOpen = false) : Balanced pairs tags := by
  intro tag member isOpen
  simp [closings tag member] at isOpen

theorem block {opening closing : Tag} (balanced : Balanced pairs tags)
    (isClosing : closing.isOpen = false) (pair : (opening, closing) ∈ pairs) :
    Balanced pairs (opening :: (tags ++ [closing])) := by
  intro tag member isOpen
  rcases List.mem_cons.mp member with rfl | member
  · exact ⟨closing, by simp, pair⟩
  · rcases List.mem_append.mp member with member | member
    · obtain ⟨other, among, otherPair⟩ := balanced tag member isOpen
      exact ⟨other, by simp [among], otherPair⟩
    · obtain rfl : tag = closing := by simpa using member
      simp [isClosing] at isOpen

end Balanced

namespace Nest

/-- The tags of every block fit, and all other tags are closing tags. -/
def Shaped : Nest → Prop
  | nil => True
  | leaf content rest => (∀ tag ∈ tagsIn content, tag.isOpen = false) ∧ rest.Shaped
  | block opening inner closing rest =>
      opening.isOpen = true ∧ closing.isOpen = false ∧ opening.key = closing.key ∧
        inner.Shaped ∧ rest.Shaped

theorem matched_iff {nest : Nest} {around : List Tag} :
    nest.Matched around.head? ↔
      nest.Shaped ∧ ∀ stray ∈ nest.strays around, IsStray stray.2.head? stray.1 := by
  induction nest generalizing around with
  | nil => simp [Matched, Shaped, strays]
  | leaf content rest ih =>
      simp only [Matched, Shaped, strays, List.mem_append, List.mem_map, ih]
      constructor
      · rintro ⟨own, shaped, others⟩
        refine ⟨⟨fun tag member => (own tag member).1, shaped⟩, ?_⟩
        rintro stray (⟨tag, member, rfl⟩ | member)
        · exact own tag member
        · exact others stray member
      · rintro ⟨⟨-, shaped⟩, all⟩
        exact ⟨fun tag member => all (tag, around) (.inl ⟨tag, member, rfl⟩), shaped,
          fun stray member => all stray (.inr member)⟩
  | block opening inner closing rest innerIH restIH =>
      have inside := @innerIH (opening :: around)
      simp only [List.head?_cons] at inside
      simp only [Matched, Shaped, strays, List.mem_append, inside, restIH, or_imp, forall_and]
      tauto

theorem balanced {nest : Nest} (shaped : nest.Shaped) : Balanced nest.pairs (tagsIn nest.parts) := by
  induction nest with
  | nil => exact Balanced.of_closings (by simp [parts])
  | leaf content rest ih =>
      rw [parts, tagsIn_append]
      exact (Balanced.of_closings shaped.1).append (ih shaped.2)
  | block opening inner closing rest innerIH restIH =>
      obtain ⟨-, isClosing, -, shapedInner, shapedRest⟩ := shaped
      have insideBlock : Balanced (block opening inner closing rest).pairs (tagsIn inner.parts) :=
        (innerIH shapedInner).mono fun pair member => by simp [pairs, member]
      have afterBlock : Balanced (block opening inner closing rest).pairs (tagsIn rest.parts) :=
        (restIH shapedRest).mono fun pair member => by simp [pairs, member]
      have ends : (opening, closing) ∈ (block opening inner closing rest).pairs := by simp [pairs]
      have whole := (insideBlock.block isClosing ends).append afterBlock
      simpa [parts] using whole

/-- The tags of a nest are those of its blocks and its strays. -/
theorem perm_tagsIn (nest : Nest) (around : List Tag) :
    (tagsIn nest.parts).Perm
      (nest.pairs.map Prod.fst ++ (nest.pairs.map Prod.snd ++ (nest.strays around).map Prod.fst)) := by
  classical
  rw [List.perm_iff_count]
  intro tag
  induction nest generalizing around with
  | nil => simp [parts, pairs, strays]
  | leaf content rest ih =>
      have later := ih around
      simp only [parts, pairs, strays, tagsIn_append, List.count_append, List.map_append,
        List.map_map, Function.comp_def, List.map_id'] at later ⊢
      omega
  | block opening inner closing rest innerIH restIH =>
      have inside := innerIH (opening :: around)
      have later := restIH around
      simp only [parts, pairs, strays, tagsIn_tagged_cons, tagsIn_append, List.count_append,
        List.count_cons, List.map_append, List.map_cons] at inside later ⊢
      omega

/-- A stray stands in no block of the nest, or right inside one, and all blocks between are whole. -/
theorem exists_between {nest : Nest} {around path : List Tag} {tag : Tag} (shaped : nest.Shaped)
    (stray : (tag, path) ∈ nest.strays around) :
    (path = around ∧ ∃ between after, tagsIn nest.parts = between ++ tag :: after ∧
      Balanced nest.pairs between) ∨
    ∃ opening outer closing before between after, path = opening :: outer ∧
      opening.isOpen = true ∧ tagsIn nest.parts = before ++ opening :: (between ++ tag :: after) ∧
      Balanced nest.pairs between ∧ (opening, closing) ∈ nest.pairs ∧ closing ∈ after := by
  induction nest generalizing around with
  | nil => simp [strays] at stray
  | leaf content rest ih =>
      rcases List.mem_append.mp stray with own | later
      · obtain ⟨_, member, same⟩ := List.mem_map.mp own
        cases same
        obtain ⟨between, after, split⟩ := List.append_of_mem member
        refine .inl ⟨rfl, between, after ++ tagsIn rest.parts, by simp [parts, split], ?_⟩
        exact Balanced.of_closings fun other among => shaped.1 other (by simp [split, among])
      · rcases ih shaped.2 later with ⟨rfl, between, after, split, balanced⟩ |
          ⟨opening, outer, closing, before, between, after, rfl, opens, split, balanced, pair, ends⟩
        · exact .inl ⟨rfl, tagsIn content ++ between, after, by simp [parts, split],
            (Balanced.of_closings shaped.1).append balanced⟩
        · exact .inr ⟨opening, outer, closing, tagsIn content ++ before, between, after, rfl,
            opens, by simp [parts, split], balanced, pair, ends⟩
  | block first inner last rest innerIH restIH =>
      obtain ⟨isOpen, isClosing, fits, shapedInner, shapedRest⟩ := shaped
      have innerPairs : ∀ pair ∈ inner.pairs, pair ∈ (block first inner last rest).pairs := by
        intro pair member
        simp [pairs, member]
      have restPairs : ∀ pair ∈ rest.pairs, pair ∈ (block first inner last rest).pairs := by
        intro pair member
        simp [pairs, member]
      rcases List.mem_append.mp stray with inside | later
      · rcases innerIH shapedInner inside with ⟨rfl, between, after, split, balanced⟩ |
          ⟨opening, outer, closing, before, between, after, rfl, opens, split, balanced, pair, ends⟩
        · exact .inr ⟨first, around, last, [], between, after ++ last :: tagsIn rest.parts, rfl,
            isOpen, by simp [parts, split], balanced.mono innerPairs, by simp [pairs], by simp⟩
        · exact .inr ⟨opening, outer, closing, first :: before, between,
            after ++ last :: tagsIn rest.parts, rfl, opens, by simp [parts, split],
            balanced.mono innerPairs, innerPairs _ pair, by simp [ends]⟩
      · rcases restIH shapedRest later with ⟨rfl, between, after, split, balancedRest⟩ |
          ⟨opening, outer, closing, before, between, after, rfl, opens, split, balancedRest, pair, ends⟩
        · have whole := ((balanced shapedInner).mono innerPairs).block isClosing
            (show (first, last) ∈ (block first inner last rest).pairs by simp [pairs])
          exact .inl ⟨rfl, first :: (tagsIn inner.parts ++ [last]) ++ between, after,
            by simp [parts, split], whole.append (balancedRest.mono restPairs)⟩
        · exact .inr ⟨opening, outer, closing, first :: (tagsIn inner.parts ++ last :: before),
            between, after, rfl, opens, by simp [parts, split], balancedRest.mono restPairs,
            restPairs _ pair, ends⟩

end Nest

namespace Nest

/-- The open tags around a stray are those around the nest and opening tags of blocks. -/
theorem path_roles {nest : Nest} {around path : List Tag} {tag opening : Tag}
    (stray : (tag, path) ∈ nest.strays around) (member : opening ∈ path) :
    opening ∈ around ∨ ∃ closing, (opening, closing) ∈ nest.pairs := by
  induction nest generalizing around with
  | nil => simp [strays] at stray
  | leaf content rest ih =>
      rcases List.mem_append.mp stray with own | later
      · obtain ⟨_, -, same⟩ := List.mem_map.mp own
        cases same
        exact .inl member
      · exact ih later
  | block first inner last rest innerIH restIH =>
      rcases List.mem_append.mp stray with inside | later
      · rcases innerIH inside with around | ⟨closing, pair⟩
        · rcases List.mem_cons.mp around with rfl | around
          · exact .inr ⟨last, by simp [pairs]⟩
          · exact .inl around
        · exact .inr ⟨closing, by simp [pairs, pair]⟩
      · rcases restIH later with around | ⟨closing, pair⟩
        · exact .inl around
        · exact .inr ⟨closing, by simp [pairs, pair]⟩

end Nest

namespace Layers

def Shaped : Layers → Prop
  | last nest => nest.Shaped
  | more nest opening rest => nest.Shaped ∧ opening.isOpen = true ∧ rest.Shaped

theorem matched_iff {layers : Layers} {around : List Tag} :
    layers.Matched around.head? ↔
      layers.Shaped ∧ ∀ stray ∈ layers.strays around, IsStray stray.2.head? stray.1 := by
  induction layers generalizing around with
  | last nest => exact Nest.matched_iff
  | more nest opening rest ih =>
      have inside := @ih (opening :: around)
      simp only [List.head?_cons] at inside
      simp only [Matched, Shaped, strays, List.mem_append, Nest.matched_iff, inside, or_imp,
        forall_and]
      tauto

theorem mem_unclosed_of_around (layers : Layers) {around : List Tag} {tag : Tag}
    (member : tag ∈ around) : tag ∈ layers.unclosed around := by
  induction layers generalizing around with
  | last nest => exact member
  | more nest opening rest ih => exact ih (by simp [member])

theorem path_roles {layers : Layers} {around path : List Tag} {tag opening : Tag}
    (stray : (tag, path) ∈ layers.strays around) (member : opening ∈ path) :
    opening ∈ layers.unclosed around ∨ ∃ closing, (opening, closing) ∈ layers.pairs := by
  induction layers generalizing around with
  | last nest => exact Nest.path_roles stray member
  | more nest first rest ih =>
      rcases List.mem_append.mp stray with here | inside
      · rcases Nest.path_roles here member with isAround | ⟨closing, pair⟩
        · exact .inl (mem_unclosed_of_around rest (by simp [isAround]))
        · exact .inr ⟨closing, by simp [pairs, pair]⟩
      · rcases ih inside with isUnclosed | ⟨closing, pair⟩
        · exact .inl isUnclosed
        · exact .inr ⟨closing, by simp [pairs, pair]⟩

theorem perm_tagsIn (layers : Layers) (around : List Tag) :
    (tagsIn layers.parts ++ around).Perm
      (layers.pairs.map Prod.fst ++ (layers.pairs.map Prod.snd ++
        ((layers.strays around).map Prod.fst ++ layers.unclosed around))) := by
  classical
  induction layers generalizing around with
  | last nest =>
      have own := (nest.perm_tagsIn around).append_right around
      simpa [parts, pairs, strays, unclosed] using own
  | more nest opening rest ih =>
      have own := List.perm_iff_count.mp (nest.perm_tagsIn around)
      have inside := List.perm_iff_count.mp (ih (opening :: around))
      rw [List.perm_iff_count]
      intro tag
      have ownCount := own tag
      have insideCount := inside tag
      simp only [parts, pairs, strays, unclosed, tagsIn_append, tagsIn_tagged_cons,
        List.count_append, List.count_cons, List.map_append] at ownCount insideCount ⊢
      omega

/-- Between a stray and the open tag around it, all tags that are opened are closed. -/
theorem exists_between {layers : Layers} {around path : List Tag} {tag : Tag}
    (shaped : layers.Shaped) (stray : (tag, path) ∈ layers.strays around) :
    (path = around ∧ ∃ between after, tagsIn layers.parts = between ++ tag :: after ∧
      Balanced layers.pairs between) ∨
    ∃ opening outer before between after, path = opening :: outer ∧
      opening.isOpen = true ∧ tagsIn layers.parts = before ++ opening :: (between ++ tag :: after) ∧
      Balanced layers.pairs between ∧ (opening ∈ layers.unclosed around ∨
        ∃ closing ∈ after, (opening, closing) ∈ layers.pairs) := by
  induction layers generalizing around with
  | last nest =>
      rcases Nest.exists_between shaped stray with same |
        ⟨opening, outer, closing, before, between, after, isPath, opens, split, balanced, pair, ends⟩
      · exact .inl same
      · exact .inr ⟨opening, outer, before, between, after, isPath, opens, split, balanced,
          .inr ⟨closing, ends, pair⟩⟩
  | more nest first rest ih =>
      obtain ⟨shapedNest, isOpen, shapedRest⟩ := shaped
      have nestPairs : ∀ pair ∈ nest.pairs, pair ∈ (more nest first rest).pairs := by
        intro pair member
        simp [pairs, member]
      have restPairs : ∀ pair ∈ rest.pairs, pair ∈ (more nest first rest).pairs := by
        intro pair member
        simp [pairs, member]
      rcases List.mem_append.mp stray with here | inside
      · rcases Nest.exists_between shapedNest here with ⟨rfl, between, after, split, balanced⟩ |
          ⟨opening, outer, closing, before, between, after, rfl, opens, split, balanced, pair, ends⟩
        · exact .inl ⟨rfl, between, after ++ first :: tagsIn rest.parts, by simp [parts, split],
            balanced.mono nestPairs⟩
        · exact .inr ⟨opening, outer, before, between, after ++ first :: tagsIn rest.parts, rfl,
            opens, by simp [parts, split], balanced.mono nestPairs,
            .inr ⟨closing, by simp [ends], nestPairs _ pair⟩⟩
      · rcases ih shapedRest inside with ⟨rfl, between, after, split, balanced⟩ |
          ⟨opening, outer, before, between, after, rfl, opens, split, balanced, role⟩
        · exact .inr ⟨first, around, tagsIn nest.parts, between, after, rfl,
            isOpen, by simp [parts, split], balanced.mono restPairs,
            .inl (mem_unclosed_of_around rest (by simp))⟩
        · refine .inr ⟨opening, outer, tagsIn nest.parts ++ first :: before, between, after, rfl,
            opens, by simp [parts, split], balanced.mono restPairs, ?_⟩
          rcases role with isUnclosed | ⟨closing, ends, pair⟩
          · exact .inl isUnclosed
          · exact .inr ⟨closing, ends, restPairs _ pair⟩

section Roles

variable {layers : Layers} {opening closing other : Tag} {path : List Tag}

theorem nodup_roles (once : (tagsIn layers.parts).Nodup) :
    (layers.pairs.map Prod.fst ++ (layers.pairs.map Prod.snd ++
      ((layers.strays []).map Prod.fst ++ layers.unclosed []))).Nodup := by
  have perm := layers.perm_tagsIn []
  rw [List.append_nil] at perm
  exact perm.nodup_iff.mp once

theorem mem_tagsIn_iff (layers : Layers) (tag : Tag) :
    tag ∈ tagsIn layers.parts ↔ (∃ pair ∈ layers.pairs, pair.1 = tag) ∨
      (∃ pair ∈ layers.pairs, pair.2 = tag) ∨ (∃ stray ∈ layers.strays [], stray.1 = tag) ∨
        tag ∈ layers.unclosed [] := by
  have perm := layers.perm_tagsIn []
  rw [List.append_nil] at perm
  rw [perm.mem_iff]
  simp only [List.mem_append, List.mem_map]

theorem mem_tagsIn_of_stray {tag : Tag} (stray : (tag, path) ∈ layers.strays []) :
    tag ∈ tagsIn layers.parts := by
  rw [mem_tagsIn_iff]
  exact .inr (.inr (.inl ⟨_, stray, rfl⟩))

theorem mem_tagsIn_of_unclosed {tag : Tag} (isUnclosed : tag ∈ layers.unclosed []) :
    tag ∈ tagsIn layers.parts := by
  rw [mem_tagsIn_iff]
  exact .inr (.inr (.inr isUnclosed))

theorem mem_tagsIn_of_mem_path {tag : Tag} (stray : (tag, path) ∈ layers.strays [])
    (member : opening ∈ path) : opening ∈ tagsIn layers.parts := by
  rcases path_roles stray member with isUnclosed | ⟨closing, pair⟩
  · exact mem_tagsIn_of_unclosed isUnclosed
  · rw [mem_tagsIn_iff]
    exact .inl ⟨_, pair, rfl⟩

theorem mem_unclosed_of_no_pairs (noPairs : layers.pairs = []) {tag : Tag}
    (stray : (tag, path) ∈ layers.strays []) (member : opening ∈ path) :
    opening ∈ layers.unclosed [] := by
  rcases path_roles stray member with isUnclosed | ⟨closing, pair⟩
  · exact isUnclosed
  · simp [noPairs] at pair

theorem closing_unique (once : (tagsIn layers.parts).Nodup)
    (pair : (opening, closing) ∈ layers.pairs) (otherPair : (opening, other) ∈ layers.pairs) :
    closing = other := by
  have openings := (List.nodup_append.mp (nodup_roles once)).1
  have same := List.inj_on_of_nodup_map openings pair otherPair rfl
  exact congrArg Prod.snd same

theorem not_mem_unclosed_of_pair (once : (tagsIn layers.parts).Nodup)
    (pair : (opening, closing) ∈ layers.pairs) : opening ∉ layers.unclosed [] := by
  intro isUnclosed
  have apart := (List.nodup_append.mp (nodup_roles once)).2.2
  exact apart opening (List.mem_map_of_mem pair) opening (by simp [isUnclosed]) rfl

theorem not_stray_of_pair (once : (tagsIn layers.parts).Nodup)
    (pair : (opening, closing) ∈ layers.pairs) : (closing, path) ∉ layers.strays [] := by
  intro stray
  have closings := (List.nodup_append.mp (nodup_roles once)).2.1
  have apart := (List.nodup_append.mp closings).2.2
  have isStray : closing ∈ (layers.strays []).map Prod.fst := List.mem_map_of_mem stray
  exact apart closing (List.mem_map_of_mem pair) closing (by simp [isStray]) rfl

end Roles

end Layers

end Covenant
