import Covenant.Text.Group
import Mathlib.Data.List.Basic

/-!
# The pieces between separators

The pieces of a text hold its characters in order, without the separators.  A text can also be cut in
two where a separator is first found.  A text that is grouped from the right has pieces of one length
but for the first, and one that is grouped from the left but for the last; that piece has at least one
character.
-/

namespace Covenant.Text

theorem splitAt_ne_nil (separator : Char) (text : Text) : splitAt separator text ≠ [] := by
  cases text with
  | nil => exact List.cons_ne_nil [] []
  | cons c text =>
      rw [splitAt]
      split
      · exact List.cons_ne_nil [c] []
      · split <;> exact List.cons_ne_nil _ _

section Characters

variable {c : Char} {text : Text}

theorem removeChar_eq_self (absent : c ∉ text) : removeChar c text = text :=
  List.filter_eq_self.mpr fun _ member => decide_eq_true fun same => absent (same ▸ member)

theorem removeChar_append (c : Char) (first second : Text) :
    removeChar c (first ++ second) = removeChar c first ++ removeChar c second :=
  List.filter_append ..

theorem replaceChar_eq_self (absent : c ∉ text) (new : Text) : replaceChar c new text = text := by
  have same : ∀ d ∈ text, (if d = c then new else [d]) = [d] := by
    intro d member
    have other : d ≠ c := fun isOld => absent (isOld ▸ member)
    exact if_neg other
  rw [replaceChar, List.flatMap_congr same, List.flatMap_singleton']

theorem replaceChar_append (c : Char) (new first second : Text) :
    replaceChar c new (first ++ second) = replaceChar c new first ++ replaceChar c new second :=
  List.flatMap_append

end Characters

theorem flatten_splitAt (separator : Char) (text : Text) :
    (splitAt separator text).flatten = removeChar separator text := by
  induction text with
  | nil => rfl
  | cons c text ih =>
      obtain ⟨piece, pieces, split⟩ := List.exists_cons_of_ne_nil (splitAt_ne_nil separator text)
      rw [split] at ih
      rw [splitAt, split, removeChar, List.filter_cons, ← removeChar, ← ih]
      by_cases isSeparator : c = separator <;> simp [isSeparator]

theorem mem_of_mem_splitAt {separator : Char} {text piece : Text}
    (isPiece : piece ∈ splitAt separator text) {c : Char} (member : c ∈ piece) : c ∈ text := by
  have inPieces : c ∈ (splitAt separator text).flatten := List.mem_flatten_of_mem isPiece member
  rw [flatten_splitAt] at inPieces
  exact List.mem_of_mem_filter inPieces

theorem separator_not_mem_of_mem_splitAt {separator : Char} {text piece : Text}
    (isPiece : piece ∈ splitAt separator text) : separator ∉ piece := by
  intro member
  have inPieces : separator ∈ (splitAt separator text).flatten := List.mem_flatten_of_mem isPiece member
  rw [flatten_splitAt] at inPieces
  simpa using List.of_mem_filter inPieces

theorem splitAt_append_separator (separator : Char) (first second : Text) :
    splitAt separator (first ++ separator :: second) =
      splitAt separator first ++ splitAt separator second := by
  induction first with
  | nil =>
      obtain ⟨piece, pieces, split⟩ := List.exists_cons_of_ne_nil (splitAt_ne_nil separator second)
      simp [splitAt, split]
  | cons c first ih =>
      obtain ⟨piece, pieces, split⟩ := List.exists_cons_of_ne_nil (splitAt_ne_nil separator first)
      rw [List.cons_append, splitAt, splitAt, ih, split]
      dsimp only [List.cons_append]
      split
      · rfl
      · rfl

/-- A text that begins or ends with the separator has an empty piece. -/
theorem nil_mem_splitAt {separator : Char} {text : Text}
    (atEnd : text.head? = some separator ∨ text.getLast? = some separator) :
    [] ∈ splitAt separator text := by
  rcases atEnd with isFirst | isLast
  · obtain ⟨rest, rfl⟩ := List.head?_eq_some_iff.mp isFirst
    have split := splitAt_append_separator separator [] rest
    rw [List.nil_append] at split
    rw [split]
    exact List.mem_append_left _ List.mem_cons_self
  · obtain ⟨front, rfl⟩ := List.getLast?_eq_some_iff.mp isLast
    rw [splitAt_append_separator]
    exact List.mem_append_right _ List.mem_cons_self

theorem splitAt_of_not_mem {separator : Char} {text : Text} (single : separator ∉ text) :
    splitAt separator text = [text] := by
  induction text with
  | nil => rfl
  | cons c text ih =>
      obtain ⟨isOther, later⟩ := not_or.mp (mt List.mem_cons.mpr single)
      rw [splitAt, ih later]
      exact if_neg (Ne.symm isOther)

/-- Pieces without the separator are found again between separators. -/
theorem splitAt_joinWith {separator : Char} {pieces : List Text} (filled : pieces ≠ [])
    (single : ∀ piece ∈ pieces, separator ∉ piece) :
    splitAt separator (joinWith [separator] pieces) = pieces := by
  induction pieces with
  | nil => exact absurd rfl filled
  | cons piece pieces ih =>
      obtain ⟨own, later⟩ := List.forall_mem_cons.mp single
      cases pieces with
      | nil =>
          rw [joinWith, List.intercalate_singleton]
          exact splitAt_of_not_mem own
      | cons next pieces =>
          rw [joinWith, List.intercalate_cons_cons, ← joinWith, List.append_assoc,
            List.singleton_append, splitAt_append_separator, splitAt_of_not_mem own,
            ih (List.cons_ne_nil _ _) later]
          rfl

/-- Without the separators the pieces stand one behind the other. -/
theorem removeChar_joinWith {separator : Char} {pieces : List Text}
    (single : ∀ piece ∈ pieces, separator ∉ piece) :
    removeChar separator (joinWith [separator] pieces) = pieces.flatten := by
  cases pieces with
  | nil => rfl
  | cons piece pieces => rw [← flatten_splitAt, splitAt_joinWith (List.cons_ne_nil _ _) single]

theorem mem_of_mem_joinWith {separator : Text} {pieces : List Text} {c : Char}
    (member : c ∈ joinWith separator pieces) : c ∈ separator ∨ ∃ piece ∈ pieces, c ∈ piece := by
  induction pieces with
  | nil => cases member
  | cons piece pieces ih =>
      cases pieces with
      | nil =>
          rw [joinWith, List.intercalate_singleton] at member
          exact .inr ⟨piece, List.mem_cons_self, member⟩
      | cons next pieces =>
          rw [joinWith, List.intercalate_cons_cons, List.append_assoc, List.mem_append,
            List.mem_append] at member
          rcases member with inPiece | inSeparator | inRest
          · exact .inr ⟨piece, List.mem_cons_self, inPiece⟩
          · exact .inl inSeparator
          · exact (ih inRest).imp_right fun ⟨other, isPiece, inOther⟩ =>
              ⟨other, List.mem_cons_of_mem piece isPiece, inOther⟩

section FirstOccurrence

variable {needle before after text : Text}

theorem splitFirst?_eq_some (found : splitFirst? needle text = some (before, after)) :
    text = before ++ (needle ++ after) := by
  induction text generalizing before with
  | nil =>
      rw [splitFirst?] at found
      split at found
      · rename_i isEmpty
        cases found
        rw [List.isEmpty_iff.mp isEmpty]
        rfl
      · cases found
  | cons c text ih =>
      rw [splitFirst?] at found
      split at found
      · rename_i starts
        cases found
        obtain ⟨rest, whole⟩ := List.isPrefixOf_iff_prefix.mp starts
        rw [List.nil_append, ← whole, List.drop_left]
      · obtain ⟨⟨front, rest⟩, later, same⟩ := Option.map_eq_some_iff.mp found
        cases same
        rw [ih later, List.cons_append]

theorem splitFirst?_eq_none_iff : splitFirst? needle text = none ↔ ¬ needle <:+: text := by
  induction text with
  | nil =>
      rw [splitFirst?, List.infix_nil]
      cases needle <;> simp
  | cons c text ih =>
      rw [splitFirst?, List.infix_cons_iff, not_or, ← ih, ← List.isPrefixOf_iff_prefix]
      split
      · rename_i starts
        simp [starts]
      · rename_i starts
        simp [starts]

end FirstOccurrence

/-! ## Groups from the right -/

/-- The groups of a text, the first of which may be shorter than the others. -/
structure IsGrouping (size : Nat) (text : Text) (groups : List Text) : Prop where
  flatten_eq : groups.flatten = text
  sizes : ∃ first others, groups = first :: others ∧ 0 < first.length ∧ first.length ≤ size ∧
    ∀ group ∈ others, group.length = size

section Groups

variable {separator : Char} {size : Nat} {text : Text} {groups : List Text}

theorem joinWith_singleton_cons (first : Text) (others : List Text) :
    joinWith [separator] (first :: others) = first ++ others.flatMap (separator :: ·) := by
  induction others generalizing first with
  | nil => simp [joinWith]
  | cons next others ih =>
      rw [joinWith, List.intercalate_cons_cons, ← joinWith, ih, List.flatMap_cons, List.append_assoc,
        List.singleton_append, List.cons_append]

/-- Characters that there is room for stay in front of the next group. -/
theorem groupFrom_append (front rest : Text) :
    groupFrom separator size front.length (front ++ rest) =
      front ++ groupFrom separator size 0 rest := by
  induction front with
  | nil => rfl
  | cons c front ih =>
      rw [List.length_cons, List.cons_append, groupFrom, ih, List.cons_append]

theorem groupFrom_zero_append {group : Text} (isFull : group.length = size) (filled : group ≠ [])
    (rest : Text) : groupFrom separator size 0 (group ++ rest) =
      separator :: group ++ groupFrom separator size 0 rest := by
  obtain ⟨c, tail, rfl⟩ := List.exists_cons_of_ne_nil filled
  have room : size - 1 = tail.length := by rw [← isFull, List.length_cons, Nat.add_sub_cancel]
  rw [List.cons_append, groupFrom, room, groupFrom_append, List.cons_append, List.cons_append]

/-- A text for which there is no room is a row of full groups, each behind a separator. -/
theorem exists_fullGroups (positive : 0 < size) (separator : Char) {count : Nat}
    (length : text.length = count * size) : ∃ groups : List Text, groups.flatten = text ∧
      (∀ group ∈ groups, group.length = size) ∧
      groupFrom separator size 0 text = groups.flatMap (separator :: ·) := by
  induction count generalizing text with
  | zero =>
      obtain rfl : text = [] := List.eq_nil_of_length_eq_zero (by omega)
      exact ⟨[], rfl, nofun, rfl⟩
  | succ count ih =>
      have enough : size ≤ text.length := length ▸ Nat.le_mul_of_pos_left size count.succ_pos
      have isFull : (text.take size).length = size := List.length_take_of_le enough
      have rest : (text.drop size).length = count * size := by
        rw [List.length_drop, length, Nat.succ_mul, Nat.add_sub_cancel]
      obtain ⟨groups, flatten, sizes, grouped⟩ := ih rest
      refine ⟨text.take size :: groups, ?_, List.forall_mem_cons.mpr ⟨isFull, sizes⟩, ?_⟩
      · rw [List.flatten_cons, flatten, List.take_append_drop]
      · conv_lhs => rw [← List.take_append_drop size text]
        have filled : text.take size ≠ [] :=
          List.ne_nil_of_length_pos (Nat.lt_of_lt_of_eq positive isFull.symm)
        rw [groupFrom_zero_append isFull filled, grouped, List.flatMap_cons]

/-- The first group is filled so that only full groups follow. -/
theorem firstGroup_length (positive : 0 < size) (filled : text ≠ []) {room : Nat}
    (isRoom : (if text.length % size = 0 then size else text.length % size) = room) :
    0 < room ∧ room ≤ size ∧ room ≤ text.length ∧ size ∣ text.length - room := by
  have some : 0 < text.length := List.length_pos_of_ne_nil filled
  have same : text.length % size = room % size := by
    rw [← isRoom]
    split
    · rename_i full
      rw [full, Nat.mod_self]
    · exact (Nat.mod_mod ..).symm
  refine ⟨?_, ?_, ?_, Nat.dvd_of_mod_eq_zero (Nat.sub_mod_eq_zero_of_mod_eq same)⟩
  · split at isRoom <;> omega
  · have less := Nat.mod_lt text.length positive
    split at isRoom <;> omega
  · have atMost := Nat.mod_le text.length size
    split at isRoom
    · rename_i full
      exact isRoom ▸ Nat.le_of_dvd some (Nat.dvd_of_mod_eq_zero full)
    · omega

theorem exists_isGrouping (positive : 0 < size) (filled : text ≠ []) (separator : Char) :
    ∃ groups, IsGrouping size text groups ∧
      groupRight separator size text = joinWith [separator] groups := by
  rw [groupRight]
  generalize isRoom : (if text.length % size = 0 then size else text.length % size) = room
  obtain ⟨least, most, enough, whole⟩ := firstGroup_length positive filled isRoom
  have first : (text.take room).length = room := List.length_take_of_le enough
  have rest : (text.drop room).length = (text.length - room) / size * size := by
    rw [List.length_drop, Nat.div_mul_cancel whole]
  obtain ⟨groups, flatten, sizes, grouped⟩ := exists_fullGroups positive separator rest
  refine ⟨text.take room :: groups, ⟨?_, _, _, rfl, ?_, ?_, sizes⟩, ?_⟩
  · rw [List.flatten_cons, flatten, List.take_append_drop]
  · rwa [first]
  · rwa [first]
  · have split : groupFrom separator size (text.take room).length (text.take room ++ text.drop room) =
        text.take room ++ groupFrom separator size 0 (text.drop room) := groupFrom_append _ _
    rw [List.take_append_drop, first, grouped] at split
    rw [split, joinWith_singleton_cons]

/-- Without the separators the groups stand one behind the other. -/
theorem IsGrouping.removeChar_joinWith (grouping : IsGrouping size text groups)
    (absent : separator ∉ text) : removeChar separator (joinWith [separator] groups) = text := by
  have single : ∀ group ∈ groups, separator ∉ group := fun group isGroup inGroup =>
    absent (grouping.flatten_eq ▸ List.mem_flatten_of_mem isGroup inGroup)
  rw [Text.removeChar_joinWith single, grouping.flatten_eq]

/-! ## Groups from the left -/

/-- Groups of a size, the last of which may be shorter but is not empty. -/
structure AreGroups (size : Nat) (groups : List Text) : Prop where
  full : ∀ group ∈ groups.dropLast, group.length = size
  last : ∀ group ∈ groups.getLast?, 0 < group.length ∧ group.length ≤ size

theorem AreGroups.pos_of_mem (areGroups : AreGroups size groups) (positive : 0 < size) {group : Text}
    (member : group ∈ groups) : 0 < group.length := by
  rcases List.eq_nil_or_concat' groups with rfl | ⟨others, last, rfl⟩
  · cases member
  · rcases List.mem_append.mp member with isFull | isLast
    · rw [areGroups.full group (by simpa using isFull)]
      exact positive
    · exact (areGroups.last group (by simpa using (List.mem_singleton.mp isLast).symm)).1

theorem AreGroups.singleton (filled : text ≠ []) (short : text.length ≤ size) : AreGroups size [text] := by
  constructor
  · exact nofun
  · intro group isLast
    obtain rfl : text = group := by simpa using isLast
    exact ⟨List.length_pos_of_ne_nil filled, short⟩

theorem AreGroups.cons (areGroups : AreGroups size groups) (filled : groups ≠ []) {group : Text}
    (isFull : group.length = size) : AreGroups size (group :: groups) := by
  constructor
  · rw [List.dropLast_cons_of_ne_nil filled]
    exact List.forall_mem_cons.mpr ⟨isFull, areGroups.full⟩
  · obtain ⟨next, others, rfl⟩ := List.exists_cons_of_ne_nil filled
    rw [List.getLast?_cons_cons]
    exact areGroups.last

theorem groupFrom_of_le {room : Nat} (enough : text.length ≤ room) :
    groupFrom separator size room text = text := by
  induction text generalizing room with
  | nil =>
      unfold groupFrom
      rfl
  | cons c text ih =>
      cases room with
      | zero => cases enough
      | succ room => rw [groupFrom, ih (Nat.le_of_succ_le_succ enough)]

/-- A full group is followed by a separator and the groups of what is left. -/
theorem groupLeft_of_lt (positive : 0 < size) (long : size < text.length) :
    groupLeft separator size text =
      text.take size ++ separator :: groupLeft separator size (text.drop size) := by
  have isFull : (text.take size).length = size := List.length_take_of_le (Nat.le_of_lt long)
  have front : groupFrom separator size (text.take size).length (text.take size ++ text.drop size) =
      text.take size ++ groupFrom separator size 0 (text.drop size) := groupFrom_append _ _
  rw [List.take_append_drop, isFull] at front
  have left : 0 < (text.drop size).length := by
    rw [List.length_drop]
    omega
  obtain ⟨c, rest, isRest⟩ := List.exists_cons_of_ne_nil (List.ne_nil_of_length_pos left)
  obtain ⟨room, rfl⟩ : ∃ room, size = room + 1 := ⟨size - 1, by omega⟩
  rw [groupLeft, front, isRest, groupLeft, groupFrom, groupFrom, Nat.add_sub_cancel]

theorem exists_areGroups (positive : 0 < size) (separator : Char) (text : Text) :
    ∃ groups, AreGroups size groups ∧ groups.flatten = text ∧
      groupLeft separator size text = joinWith [separator] groups := by
  induction length : text.length using Nat.strongRecOn generalizing text with
  | _ count ih =>
      by_cases empty : text = []
      · subst empty
        exact ⟨[], ⟨nofun, nofun⟩, rfl, groupFrom_of_le (Nat.zero_le _)⟩
      by_cases long : size < text.length
      -- a full group comes first, and what is left is shorter but not empty
      · have shorter : (text.drop size).length < count := by
          rw [List.length_drop]
          omega
        obtain ⟨groups, areGroups, flatten, grouped⟩ := ih _ shorter (text.drop size) rfl
        have filled : groups ≠ [] := by
          rintro rfl
          have none : text.drop size = [] := flatten.symm
          exact absurd (List.drop_eq_nil_iff.mp none) (Nat.not_le.mpr long)
        refine ⟨text.take size :: groups, areGroups.cons filled (List.length_take_of_le (by omega)), ?_, ?_⟩
        · rw [List.flatten_cons, flatten, List.take_append_drop]
        · obtain ⟨next, others, rfl⟩ := List.exists_cons_of_ne_nil filled
          rw [groupLeft_of_lt positive long, grouped, joinWith, joinWith, List.intercalate_cons_cons,
            List.append_assoc, List.singleton_append]
      · have short : text.length ≤ size := Nat.not_lt.mp long
        refine ⟨[text], .singleton empty short, List.flatten_singleton, ?_⟩
        rw [groupLeft, groupFrom_of_le short, joinWith, List.intercalate_singleton]

end Groups

end Covenant.Text
