import Covenant.Proofs.Text.Digits
import Covenant.Proofs.Text.Pieces
import Covenant.Word.Regions

/-!
# The names of regions

A region is named by its kind and by numbers: those of a section, or of a table, a row and a column.
The cells of a row begin in different columns as each covers at least one.  So no two regions of a
document have the same name, and the text that is found under a name is that of its region.
-/

namespace Covenant

namespace Word

theorem regionName_injective {kind other : Text} {numbers others : List Nat} (plain : ':' ∉ kind)
    (otherPlain : ':' ∉ other) (same : regionName kind numbers = regionName other others) :
    kind = other ∧ numbers = others := by
  have pieces {kind : Text} (plain : ':' ∉ kind) (numbers : List Nat) :
      Text.splitAt ':' (regionName kind numbers) = kind :: numbers.map Text.ofNat := by
    refine Text.splitAt_joinWith (List.cons_ne_nil _ _) (List.forall_mem_cons.mpr ⟨plain, ?_⟩)
    intro numeral member isColon
    obtain ⟨number, -, rfl⟩ := List.mem_map.mp member
    exact absurd (isDigit_of_mem_ofNat isColon) (by decide)
  have samePieces := congrArg (Text.splitAt ':') same
  rw [pieces plain, pieces otherPlain] at samePieces
  obtain ⟨sameKind, sameNumerals⟩ := List.cons.inj samePieces
  exact ⟨sameKind, List.map_injective_iff.mpr (fun _ _ => Text.ofNat_injective) sameNumerals⟩

/-! ### The columns of cells -/

/-- Cells with text cover at least one column. -/
def Cell.IsWide : Cell → Prop
  | .content _ span => 0 < span
  | .continued => True

instance : DecidablePred Cell.IsWide
  | .content _ span => inferInstanceAs (Decidable (0 < span))
  | .continued => .isTrue trivial

section Columns

variable {above : List PlacedCell} {cells : List Cell} {rows : Table}

theorem widthAt_pos (wide : ∀ placed ∈ above, 0 < placed.width) (column : Nat) : 0 < widthAt column above := by
  rw [widthAt]
  cases found : above.find? fun placed => placed.column = column with
  | none => exact Nat.one_pos
  | some placed => exact wide placed (List.mem_of_find?_eq_some found)

/-- The number of columns of a cell. -/
def Cell.width (above : List PlacedCell) (column : Nat) : Cell → Nat
  | .content _ span => span
  | .continued => widthAt column above

theorem placeRow_cons (above : List PlacedCell) (column : Nat) (cell : Cell) (cells : List Cell) :
    placeRow above column (cell :: cells) =
      ⟨column, cell.width above column, cell⟩ ::
        placeRow above (column + cell.width above column) cells := by
  cases cell <;> rfl

theorem Cell.IsWide.width_pos {cell : Cell} (wide : cell.IsWide)
    (wideAbove : ∀ placed ∈ above, 0 < placed.width) (column : Nat) : 0 < cell.width above column := by
  cases cell with
  | content lines span => exact wide
  | continued => exact widthAt_pos wideAbove column

/-- The cells of a row stand side by side. -/
theorem placeRow_spec (wideAbove : ∀ placed ∈ above, 0 < placed.width) (wide : ∀ cell ∈ cells, cell.IsWide)
    (column : Nat) :
    (∀ placed ∈ placeRow above column cells, column ≤ placed.column ∧ 0 < placed.width) ∧
      (placeRow above column cells).Pairwise fun first second => first.column < second.column := by
  induction cells generalizing column with
  | nil => exact ⟨nofun, .nil⟩
  | cons cell cells ih =>
      obtain ⟨own, later⟩ := List.forall_mem_cons.mp wide
      have room := own.width_pos wideAbove column
      obtain ⟨behind, inOrder⟩ := ih later (column + cell.width above column)
      rw [placeRow_cons]
      refine ⟨List.forall_mem_cons.mpr ⟨⟨Nat.le_refl column, room⟩, fun placed member => ?_⟩,
        List.pairwise_cons.mpr ⟨fun placed member => ?_, inOrder⟩⟩
      · exact ⟨Nat.le_trans (Nat.le_add_right _ _) (behind placed member).1, (behind placed member).2⟩
      · exact Nat.lt_of_lt_of_le (Nat.lt_add_of_pos_right room) (behind placed member).1

theorem placeRows_spec (wideAbove : ∀ placed ∈ above, 0 < placed.width)
    (wide : ∀ row ∈ rows, ∀ cell ∈ row, cell.IsWide) :
    ∀ row ∈ placeRows above rows, row.Pairwise fun first second => first.column < second.column := by
  induction rows generalizing above with
  | nil => exact nofun
  | cons row rows ih =>
      obtain ⟨own, later⟩ := List.forall_mem_cons.mp wide
      obtain ⟨behind, inOrder⟩ := placeRow_spec wideAbove own 0
      exact List.forall_mem_cons.mpr ⟨inOrder, ih (fun placed member => (behind placed member).2) later⟩

end Columns

/-! ### Different names -/

/-- No two regions have the same name. -/
def HaveOwnNames (regions : List (Text × Text)) : Prop :=
  regions.Pairwise fun first second => first.1 ≠ second.1

theorem HaveOwnNames.lookup {regions : List (Text × Text)} (ownNames : HaveOwnNames regions)
    {entry : Text × Text} (member : entry ∈ regions) : regions.lookup entry.1 = some entry.2 := by
  obtain ⟨before, after, rfl⟩ := List.append_of_mem member
  refine List.lookup_eq_some_iff.mpr ⟨before, after, rfl, fun other inFront => ?_⟩
  have differs := (List.pairwise_append.mp ownNames).2.2 other inFront entry List.mem_cons_self
  simpa using differs.symm

def sectionKinds : List Text := ["header", "footer"]

def tableKinds : List Text := ["table"]

/-- Regions of some kinds, whose first number is at least `index`. -/
def AreNumbered (kinds : List Text) (index : Nat) (regions : List (Text × Text)) : Prop :=
  ∀ entry ∈ regions, ∃ kind ∈ kinds, ∃ number numbers,
    index ≤ number ∧ entry.1 = regionName kind (number :: numbers)

section Names

variable {index table row : Nat}

theorem mem_partRegion {kind : Text} {part : Option (List Line)} {entry : Text × Text} :
    entry ∈ partRegion kind index part ↔ ∃ lines, part = some lines ∧
      (lines.any fun line => !(textOfRuns line).isEmpty) = true ∧
        entry = (regionName kind [index], textOfLines lines) := by
  cases part with
  | none => simp [partRegion]
  | some lines =>
      rw [partRegion]
      split
      · rename_i filled
        constructor
        · exact fun member => ⟨lines, rfl, filled, List.mem_singleton.mp member⟩
        · rintro ⟨others, ⟨⟩, -, rfl⟩
          exact List.mem_singleton_self _
      · rename_i blank
        refine iff_of_false List.not_mem_nil ?_
        rintro ⟨others, ⟨⟩, filled, -⟩
        exact blank filled

theorem areNumbered_sectionRegions (sections : List Section) :
    AreNumbered sectionKinds index (sectionRegions index sections) := by
  induction sections generalizing index with
  | nil => exact nofun
  | cons part sections ih =>
      intro entry member
      rw [sectionRegions, List.append_assoc, List.mem_append, List.mem_append] at member
      rcases member with isHeader | isFooter | isLater
      · obtain ⟨lines, -, -, rfl⟩ := mem_partRegion.mp isHeader
        exact ⟨_, List.mem_cons_self, index, [], Nat.le_refl index, rfl⟩
      · obtain ⟨lines, -, -, rfl⟩ := mem_partRegion.mp isFooter
        exact ⟨_, List.mem_cons_of_mem _ (List.mem_singleton_self _), index, [], Nat.le_refl index, rfl⟩
      · obtain ⟨kind, isKind, number, numbers, exceeds, named⟩ := ih entry isLater
        exact ⟨kind, isKind, number, numbers, Nat.le_of_succ_le exceeds, named⟩

theorem haveOwnNames_partRegion (kind : Text) (index : Nat) (part : Option (List Line)) :
    HaveOwnNames (partRegion kind index part) := by
  unfold partRegion
  split
  · split
    · exact List.pairwise_singleton _ _
    · exact .nil
  · exact .nil

theorem haveOwnNames_sectionRegions (sections : List Section) :
    HaveOwnNames (sectionRegions index sections) := by
  induction sections generalizing index with
  | nil => exact .nil
  | cons part sections ih =>
      have later := @areNumbered_sectionRegions (index + 1) sections
      have kindsPlain : ∀ kind ∈ sectionKinds, ':' ∉ kind := by decide
      -- the names of this section have its number, and those of the others a greater one
      have apart : ∀ kind ∈ sectionKinds, ∀ entry ∈ sectionRegions (index + 1) sections,
          regionName kind [index] ≠ entry.1 := by
        intro kind isKind entry member same
        obtain ⟨other, isOther, number, numbers, exceeds, named⟩ := later entry member
        have numbersSame :=
          (regionName_injective (kindsPlain kind isKind) (kindsPlain other isOther) (same.trans named)).2
        obtain ⟨rfl, -⟩ := List.cons.inj numbersSame
        omega
      rw [sectionRegions, List.append_assoc]
      refine List.pairwise_append.mpr ⟨haveOwnNames_partRegion _ _ _,
        List.pairwise_append.mpr ⟨haveOwnNames_partRegion _ _ _, ih, ?_⟩, ?_⟩
      · intro first isFirst second isSecond
        obtain ⟨lines, -, -, rfl⟩ := mem_partRegion.mp isFirst
        exact apart _ (by decide) second isSecond
      · intro first isFirst second isSecond
        obtain ⟨lines, -, -, rfl⟩ := mem_partRegion.mp isFirst
        rcases List.mem_append.mp isSecond with isFooter | isLater
        · obtain ⟨others, -, -, rfl⟩ := mem_partRegion.mp isFooter
          intro same
          exact absurd (regionName_injective (by decide) (by decide) same).1 (by decide)
        · exact apart _ (by decide) second isLater

theorem mem_rowRegions {cells : List PlacedCell} {entry : Text × Text} :
    entry ∈ rowRegions table row cells ↔ ∃ placed ∈ cells, ∃ lines span,
      placed.cell = .content lines span ∧
        entry = (regionName "table" [table, row, placed.column], textOfLines lines) := by
  rw [rowRegions, List.mem_filterMap]
  refine exists_congr fun placed => and_congr_right fun _ => ?_
  cases placed.cell with
  | content lines span => simp [eq_comm]
  | continued => simp

theorem areNumbered_rowsRegions (rows : List (List PlacedCell)) :
    ∀ entry ∈ rowsRegions table row rows, ∃ number column, row ≤ number ∧
      entry.1 = regionName "table" [table, number, column] := by
  induction rows generalizing row with
  | nil => exact nofun
  | cons cells rows ih =>
      intro entry member
      rcases List.mem_append.mp member with isHere | isLater
      · obtain ⟨placed, -, lines, span, -, rfl⟩ := mem_rowRegions.mp isHere
        exact ⟨row, placed.column, Nat.le_refl row, rfl⟩
      · obtain ⟨number, column, exceeds, named⟩ := ih entry isLater
        exact ⟨number, column, Nat.le_of_succ_le exceeds, named⟩

theorem numbers_of_same_name {numbers others : List Nat}
    (same : regionName "table" numbers = regionName "table" others) : numbers = others :=
  (regionName_injective (by decide) (by decide) same).2

theorem name_of_placed {placed : PlacedCell} {entry : Text × Text}
    (isEntry : (match placed.cell with
      | .content lines _ => some (regionName "table" [table, row, placed.column], textOfLines lines)
      | .continued => none) = some entry) : entry.1 = regionName "table" [table, row, placed.column] := by
  cases isCell : placed.cell with
  | content lines span =>
      rw [isCell] at isEntry
      obtain rfl := Option.some.inj isEntry
      rfl
  | continued =>
      rw [isCell] at isEntry
      cases isEntry

theorem haveOwnNames_rowsRegions {rows : List (List PlacedCell)}
    (inOrder : ∀ cells ∈ rows, cells.Pairwise fun first second => first.column < second.column) :
    HaveOwnNames (rowsRegions table row rows) := by
  induction rows generalizing row with
  | nil => exact .nil
  | cons cells rows ih =>
      obtain ⟨own, later⟩ := List.forall_mem_cons.mp inOrder
      refine List.pairwise_append.mpr ⟨?_, ih later, ?_⟩
      · refine List.pairwise_filterMap.mpr (own.imp fun {first second} before => ?_)
        intro entry isEntry other isOther same
        rw [name_of_placed isEntry, name_of_placed isOther] at same
        have columnsSame := numbers_of_same_name same
        simp only [List.cons.injEq, true_and, and_true] at columnsSame
        omega
      · intro first isFirst second isSecond same
        obtain ⟨placed, -, lines, span, -, rfl⟩ := mem_rowRegions.mp isFirst
        obtain ⟨number, column, exceeds, named⟩ := areNumbered_rowsRegions rows second isSecond
        have numbersSame := numbers_of_same_name (same.trans named)
        simp only [List.cons.injEq, true_and, and_true] at numbersSame
        omega

theorem areNumbered_tableRegions (tables : List Table) :
    AreNumbered tableKinds index (tableRegions index tables) := by
  induction tables generalizing index with
  | nil => exact nofun
  | cons table tables ih =>
      intro entry member
      rcases List.mem_append.mp member with isHere | isLater
      · obtain ⟨number, column, -, named⟩ := areNumbered_rowsRegions _ entry isHere
        exact ⟨_, List.mem_singleton_self _, index, [number, column], Nat.le_refl index, named⟩
      · obtain ⟨kind, isKind, number, numbers, exceeds, named⟩ := ih entry isLater
        exact ⟨kind, isKind, number, numbers, Nat.le_of_succ_le exceeds, named⟩

theorem haveOwnNames_tableRegions {tables : List Table}
    (wide : ∀ table ∈ tables, ∀ cells ∈ table, ∀ cell ∈ cells, cell.IsWide) :
    HaveOwnNames (tableRegions index tables) := by
  induction tables generalizing index with
  | nil => exact .nil
  | cons table tables ih =>
      obtain ⟨own, later⟩ := List.forall_mem_cons.mp wide
      refine List.pairwise_append.mpr
        ⟨haveOwnNames_rowsRegions (placeRows_spec nofun own), ih later, ?_⟩
      intro first isFirst second isSecond same
      obtain ⟨number, column, -, named⟩ := areNumbered_rowsRegions _ first isFirst
      obtain ⟨kind, isKind, other, numbers, exceeds, otherNamed⟩ :=
        areNumbered_tableRegions tables second isSecond
      obtain rfl := List.mem_singleton.mp isKind
      have numbersSame := numbers_of_same_name (named.symm.trans (same.trans otherNamed))
      obtain ⟨rfl, -⟩ := List.cons.inj numbersSame
      omega

end Names

/-- The cells of all tables cover at least one column. -/
def Document.HasWideCells (document : Document) : Prop :=
  ∀ table ∈ document.tables, ∀ cells ∈ table, ∀ cell ∈ cells, cell.IsWide

instance : DecidablePred Document.HasWideCells := fun document =>
  inferInstanceAs (Decidable (∀ table ∈ document.tables, ∀ cells ∈ table, ∀ cell ∈ cells, cell.IsWide))

theorem Document.haveOwnNames_regions {document : Document} (wide : document.HasWideCells) :
    HaveOwnNames document.regions := by
  have sections := @areNumbered_sectionRegions 0 document.sections
  have tables := @areNumbered_tableRegions 0 document.tables
  have plain : ∀ kind ∈ sectionKinds ++ tableKinds, ':' ∉ kind := by decide
  have bodyName : bodyRegion = regionName "body" [] := by decide
  refine List.pairwise_cons.mpr ⟨fun entry member same => ?_, List.pairwise_append.mpr
    ⟨haveOwnNames_sectionRegions _, haveOwnNames_tableRegions wide, fun first isFirst second isSecond same => ?_⟩⟩
  · obtain ⟨kind, isKind, number, numbers, -, named⟩ : ∃ kind ∈ sectionKinds ++ tableKinds,
        ∃ number numbers, 0 ≤ number ∧ entry.1 = regionName kind (number :: numbers) := by
      rcases List.mem_append.mp member with isSection | isTable
      · obtain ⟨kind, isKind, named⟩ := sections entry isSection
        exact ⟨kind, List.mem_append_left tableKinds isKind, named⟩
      · obtain ⟨kind, isKind, named⟩ := tables entry isTable
        exact ⟨kind, List.mem_append_right sectionKinds isKind, named⟩
    have numbersSame := (regionName_injective (by decide) (plain kind isKind)
      (bodyName.symm.trans (same.trans named))).2
    cases numbersSame
  · obtain ⟨kind, isKind, number, numbers, -, named⟩ := sections first isFirst
    obtain ⟨other, isOther, otherNumber, others, -, otherNamed⟩ := tables second isSecond
    have kindsSame := (regionName_injective (plain kind (List.mem_append_left tableKinds isKind))
      (plain other (List.mem_append_right sectionKinds isOther))
      (named.symm.trans (same.trans otherNamed))).1
    obtain rfl := List.mem_singleton.mp isOther
    subst kindsSame
    exact absurd isKind (by decide)

end Word

end Covenant
