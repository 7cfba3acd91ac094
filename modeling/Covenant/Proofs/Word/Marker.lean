import Covenant.Proofs.Text.Delimiter
import Covenant.Proofs.Text.Digits
import Covenant.Proofs.Text.Lines
import Covenant.Word.Body

/-!
# Markers of tables in a text

The place of a table is kept by a marker on a line of its own.  `MarkersAlone` says that the character
of markers stands nowhere else, and `tablesIn` lists the tables whose markers there are.  Both are
found line by line; so texts can be put together as long as no marker comes to share its line with
other text.
-/

namespace Covenant.Word

open Text (firstLine lastLine isAllBlank)

/-! ### Lines -/

/-- The table whose marker is all that a line holds. -/
def tableOn? (count : Nat) (line : Text) : Option Nat :=
  (List.range count).find? fun index => Text.trim line = marker index

/-- The tables whose markers stand alone on lines of a text, in order. -/
def tablesIn (count : Nat) (text : Text) : List Nat := (Text.lines text).filterMap (tableOn? count)

/-- A line with the character of markers is the marker of a table. -/
def IsMarkerOrFree (count : Nat) (line : Text) : Prop :=
  markerEdge ∈ line → ∃ index < count, Text.trim line = marker index

/-- Markers stand on lines of their own, and are markers of tables. -/
def MarkersAlone (count : Nat) (text : Text) : Prop :=
  ∀ line ∈ Text.lines text, IsMarkerOrFree count line

variable {count index : Nat} {c : Char} {line first second blanks : Text}

theorem mem_marker : c ∈ marker index ↔ c = markerEdge ∨ c ∈ markerName ∨ c ∈ Text.ofNat index := by
  simp [marker, or_comm, or_left_comm]

theorem marker_injective {other : Nat} (same : marker index = marker other) : index = other := by
  simp only [marker, List.cons_append, List.cons.injEq, true_and, List.append_assoc,
    List.append_cancel_left_eq, List.append_cancel_right_eq] at same
  exact Text.ofNat_injective same

theorem isDelimiter_of_mem_marker (member : c ∈ marker index) : isDelimiter c = false := by
  have nameClean : Clean markerName := by decide
  rcases mem_marker.mp member with rfl | inName | inNumber
  · rfl
  · exact nameClean c inName
  · exact Clean.ofNat index c inNumber

theorem isBlank_of_mem_marker (member : c ∈ marker index) : isBlank c = false := by
  have nameFilled : markerName.all (fun d => !isBlank d) = true := by decide
  rcases mem_marker.mp member with rfl | inName | inNumber
  · rfl
  · simpa using List.all_eq_true.mp nameFilled c inName
  · exact isBlank_of_isDigit (isDigit_of_mem_ofNat inNumber)

theorem trim_marker (index : Nat) : Text.trim (marker index) = marker index := by
  have around := @Text.trim_around [] (marker index) [] nofun nofun (List.cons_ne_nil _ _)
    fun c member => isBlank_of_mem_marker member
  simpa using around

theorem tableOn?_eq_some_iff :
    tableOn? count line = some index ↔ index < count ∧ Text.trim line = marker index := by
  constructor
  · intro found
    exact ⟨List.mem_range.mp (List.mem_of_find?_eq_some found), by simpa using List.find?_some found⟩
  · rintro ⟨inRange, isMarker⟩
    cases found : tableOn? count line with
    | none =>
        have noMarker := List.find?_eq_none.mp found index (List.mem_range.mpr inRange)
        simp [isMarker] at noMarker
    | some other =>
        have isOther : Text.trim line = marker other := by simpa using List.find?_some found
        rw [marker_injective (isMarker.symm.trans isOther)]

theorem tableOn?_of_not_mem (free : markerEdge ∉ line) : tableOn? count line = none := by
  by_contra found
  obtain ⟨index, isTable⟩ := Option.ne_none_iff_exists'.mp found
  have isMarker := (tableOn?_eq_some_iff.mp isTable).2
  exact free (Text.mem_of_mem_trim (isMarker ▸ mem_marker.mpr (.inl rfl)))

theorem edge_not_mem_of_isAllBlank (allBlank : isAllBlank blanks = true) : markerEdge ∉ blanks := by
  intro member
  have isBlankEdge : isBlank markerEdge = true := List.all_eq_true.mp allBlank _ member
  exact absurd isBlankEdge (by decide)

/-- Two pieces of a line may stand together: a marker has only blanks beside it. -/
def MayMeet (piece other : Text) : Prop :=
  (markerEdge ∉ piece ∧ markerEdge ∉ other) ∨ isAllBlank piece = true ∨ isAllBlank other = true

theorem MayMeet.isMarkerOrFree_append_iff (mayMeet : MayMeet first second) :
    IsMarkerOrFree count (first ++ second) ↔
      IsMarkerOrFree count first ∧ IsMarkerOrFree count second := by
  rcases mayMeet with ⟨free, freeSecond⟩ | allBlank | allBlank
  · simp [IsMarkerOrFree, free, freeSecond]
  · simp [IsMarkerOrFree, edge_not_mem_of_isAllBlank allBlank, Text.trim_blanks_append allBlank]
  · simp [IsMarkerOrFree, edge_not_mem_of_isAllBlank allBlank, Text.trim_append_blanks allBlank]

theorem MayMeet.tableOn?_append (mayMeet : MayMeet first second) :
    (tableOn? count (first ++ second)).toList =
      (tableOn? count first).toList ++ (tableOn? count second).toList := by
  rcases mayMeet with ⟨free, freeSecond⟩ | allBlank | allBlank
  · simp [tableOn?_of_not_mem, free, freeSecond]
  · have noTable : tableOn? count first = none :=
      tableOn?_of_not_mem (edge_not_mem_of_isAllBlank allBlank)
    rw [noTable, tableOn?, Text.trim_blanks_append allBlank]
    rfl
  · have noTable : tableOn? count second = none :=
      tableOn?_of_not_mem (edge_not_mem_of_isAllBlank allBlank)
    rw [noTable, tableOn?, Text.trim_append_blanks allBlank]
    simp [tableOn?]

/-! ### Texts put together -/

theorem filterMap_eq_flatMap_toList {α β : Type} (f : α → Option β) (entries : List α) :
    entries.filterMap f = entries.flatMap fun entry => (f entry).toList := by
  induction entries with
  | nil => rfl
  | cons entry entries ih => cases found : f entry <;> simp [found, ih]

/-- Two texts may stand together when the pieces of the line on which they meet may. -/
def Apart (first second : Text) : Prop := MayMeet (lastLine first) (firstLine second)

theorem Apart.markersAlone_append_iff (apart : Apart first second) :
    MarkersAlone count (first ++ second) ↔ MarkersAlone count first ∧ MarkersAlone count second := by
  have ownFirst := Text.lines_eq_append_lastLine first
  have ownSecond := Text.lines_eq_firstLine_cons second
  rw [MarkersAlone, MarkersAlone, MarkersAlone, Text.lines_append, ownFirst, ownSecond]
  simp only [List.dropLast_concat, List.tail_cons, List.forall_mem_append, List.forall_mem_cons,
    MayMeet.isMarkerOrFree_append_iff apart, List.not_mem_nil, false_imp_iff, implies_true, and_true,
    and_assoc]

theorem Apart.tablesIn_append (apart : Apart first second) :
    tablesIn count (first ++ second) = tablesIn count first ++ tablesIn count second := by
  have ownFirst := Text.lines_eq_append_lastLine first
  have ownSecond := Text.lines_eq_firstLine_cons second
  simp only [tablesIn, filterMap_eq_flatMap_toList]
  rw [Text.lines_append]
  conv_rhs => rw [ownFirst, ownSecond]
  simp [MayMeet.tableOn?_append apart]

theorem markersAlone_of_free (free : markerEdge ∉ first) : MarkersAlone count first :=
  fun _ isLine member => absurd (Text.mem_of_mem_lines isLine member) free

theorem tablesIn_of_free (free : markerEdge ∉ first) : tablesIn count first = [] :=
  List.filterMap_eq_nil_iff.mpr fun _ isLine =>
    tableOn?_of_not_mem fun member => free (Text.mem_of_mem_lines isLine member)

theorem markersAlone_break_iff :
    MarkersAlone count (first ++ '\n' :: second) ↔
      MarkersAlone count first ∧ MarkersAlone count second := by
  rw [MarkersAlone, Text.lines_append_break, List.forall_mem_append]
  rfl

theorem tablesIn_break :
    tablesIn count (first ++ '\n' :: second) = tablesIn count first ++ tablesIn count second := by
  rw [tablesIn, Text.lines_append_break, List.filterMap_append]
  rfl

end Covenant.Word
