import Covenant.Proofs.Word.Marker

/-!
# Texts between markers

A token has delimiters at both ends, so no marker is beside it.  It can be exchanged for any text
whose markers still come to stand alone on their lines.  `Exchangeable` says of two texts that this
is so wherever they stand, and `Embeds` of one text that it can be put anywhere.
-/

namespace Covenant.Word

open Text (firstLine lastLine isAllBlank)

variable {count : Nat} {c : Char} {first second token new : Text}

/-! ### Tokens -/

/-- A text between delimiters. -/
def IsEnclosed (text : Text) : Prop :=
  ∃ opening inner closing, text = opening :: (inner ++ [closing]) ∧ isDelimiter opening = true ∧
    isDelimiter closing = true

/-- A text without a marker on its first and last line, whose markers stand alone wherever the text
is put. -/
structure Embeds (count : Nat) (text : Text) : Prop where
  alone : MarkersAlone count text
  first : markerEdge ∉ firstLine text
  last : markerEdge ∉ lastLine text

theorem isBlank_of_isDelimiter (delimiter : isDelimiter c = true) : isBlank c = false := by
  have all : ("[]\x7b\x7d<>" : Text).all (fun c => !isBlank c) = true := by decide
  simpa using List.all_eq_true.mp all c (isDelimiter_iff.mp delimiter)

theorem ne_break_of_isDelimiter (delimiter : isDelimiter c = true) : c ≠ '\n' := by
  rintro rfl
  exact absurd delimiter (by decide)

/-- A delimiter has no marker beside it. -/
theorem MarkersAlone.beside_delimiter (alone : MarkersAlone count (first ++ c :: second))
    (delimiter : isDelimiter c = true) :
    markerEdge ∉ lastLine first ∧ markerEdge ∉ firstLine second := by
  have noBreak := ne_break_of_isDelimiter delimiter
  have notBlank := isBlank_of_isDelimiter delimiter
  have isLine : lastLine first ++ c :: firstLine second ∈ Text.lines (first ++ c :: second) := by
    rw [Text.lines_append, Text.firstLine_cons noBreak]
    simp
  have free : markerEdge ∉ lastLine first ++ c :: firstLine second := by
    intro member
    obtain ⟨index, -, isMarker⟩ := alone _ isLine member
    have inTrimmed : c ∈ Text.trim (lastLine first ++ c :: firstLine second) := by
      rw [Text.trim, Text.trimStart_append_cons _ notBlank, Text.trimEnd_append_cons _ notBlank]
      simp
    rw [isMarker] at inTrimmed
    exact absurd (isDelimiter_of_mem_marker inTrimmed) (by simp [delimiter])
  exact ⟨fun member => free (List.mem_append_left _ member),
    fun member => free (List.mem_append_right _ (List.mem_cons_of_mem c member))⟩

/-- A token divides a text. -/
theorem MarkersAlone.divide (alone : MarkersAlone count (first ++ (token ++ second)))
    (enclosed : IsEnclosed token) :
    (MarkersAlone count first ∧ markerEdge ∉ lastLine first) ∧ Embeds count token ∧
      (MarkersAlone count second ∧ markerEdge ∉ firstLine second) ∧
      tablesIn count (first ++ (token ++ second)) =
        tablesIn count first ++ (tablesIn count token ++ tablesIn count second) := by
  obtain ⟨opening, inner, closing, rfl, opens, closes⟩ := enclosed
  have atOpening : MarkersAlone count (first ++ opening :: (inner ++ closing :: second)) := by
    simpa using alone
  have atClosing : MarkersAlone count ((first ++ opening :: inner) ++ closing :: second) := by
    simpa using alone
  obtain ⟨inFront, afterOpening⟩ := atOpening.beside_delimiter opens
  obtain ⟨beforeClosing, behind⟩ := atClosing.beside_delimiter closes
  have quietFirst : markerEdge ∉ firstLine (opening :: (inner ++ [closing])) := by
    rw [Text.firstLine_cons (ne_break_of_isDelimiter opens)]
    refine List.not_mem_cons_of_ne_of_not_mem (by rintro rfl; cases opens) fun member => ?_
    exact afterOpening (by
      simpa using @Text.mem_firstLine_append_of_left (inner ++ [closing]) second _ member)
  have quietLast : markerEdge ∉ lastLine (opening :: (inner ++ [closing])) := by
    rw [← List.cons_append, Text.lastLine_concat _ (ne_break_of_isDelimiter closes)]
    intro member
    rcases List.mem_append.mp member with inside | isClosing
    · exact beforeClosing (Text.mem_lastLine_append_of_right inside)
    · rw [← List.mem_singleton.mp isClosing] at closes
      cases closes
  have apart : Apart first ((opening :: (inner ++ [closing])) ++ second) :=
    .inl ⟨inFront, fun member => (Text.mem_firstLine_append member).elim quietFirst behind⟩
  have apartBehind : Apart (opening :: (inner ++ [closing])) second := .inl ⟨quietLast, behind⟩
  obtain ⟨aloneFirst, aloneRest⟩ := apart.markersAlone_append_iff.mp alone
  obtain ⟨aloneToken, aloneSecond⟩ := apartBehind.markersAlone_append_iff.mp aloneRest
  exact ⟨⟨aloneFirst, inFront⟩, ⟨aloneToken, quietFirst, quietLast⟩, ⟨aloneSecond, behind⟩, by
    rw [apart.tablesIn_append, apartBehind.tablesIn_append]⟩

/-- A token on one line holds no marker. -/
theorem IsEnclosed.free_of_noBreak (enclosed : IsEnclosed token) (noBreak : '\n' ∉ token)
    (alone : MarkersAlone count token) : markerEdge ∉ token := by
  have quiet := (@MarkersAlone.divide count [] [] token (by simpa using alone) enclosed).2.1.first
  rwa [Text.firstLine_of_noBreak noBreak] at quiet

/-- A token gives way to a text whose markers, where they come to stand at its ends, have only blanks
beside them. -/
theorem MarkersAlone.exchange (alone : MarkersAlone count (first ++ (token ++ second)))
    (enclosed : IsEnclosed token) (aloneNew : MarkersAlone count new)
    (clearInFront : markerEdge ∈ firstLine new → isAllBlank (lastLine first) = true)
    (clearBehind : markerEdge ∈ lastLine new → isAllBlank (firstLine second) = true) :
    MarkersAlone count (first ++ (new ++ second)) ∧
      tablesIn count (first ++ (new ++ second)) =
        tablesIn count first ++ (tablesIn count new ++ tablesIn count second) := by
  obtain ⟨⟨aloneFirst, inFront⟩, -, ⟨aloneSecond, behind⟩, -⟩ := alone.divide enclosed
  have apartBehind : Apart new second := by
    by_cases atEnd : markerEdge ∈ lastLine new
    · exact .inr (.inr (clearBehind atEnd))
    · exact .inl ⟨atEnd, behind⟩
  have apart : Apart first (new ++ second) := by
    by_cases atStart : markerEdge ∈ firstLine new
    · exact .inr (.inl (clearInFront atStart))
    · exact .inl ⟨inFront, fun member => (Text.mem_firstLine_append member).elim atStart behind⟩
  exact ⟨apart.markersAlone_append_iff.mpr
      ⟨aloneFirst, apartBehind.markersAlone_append_iff.mpr ⟨aloneNew, aloneSecond⟩⟩, by
    rw [apart.tablesIn_append, apartBehind.tablesIn_append]⟩

/-! ### Texts that can be exchanged -/

/-- Wherever the old text stands between markers alone on their lines, the new one leaves them so, and
leaves the same tables. -/
def Exchangeable (count : Nat) (old new : Text) : Prop :=
  ∀ first second, MarkersAlone count (first ++ (old ++ second)) →
    MarkersAlone count (first ++ (new ++ second)) ∧
      tablesIn count (first ++ (new ++ second)) = tablesIn count (first ++ (old ++ second))

namespace Exchangeable

variable {old other : Text}

theorem refl (text : Text) : Exchangeable count text text := fun _ _ alone => ⟨alone, rfl⟩

/-- A text is exchanged as a whole. -/
theorem whole (exchangeable : Exchangeable count old new) (alone : MarkersAlone count old) :
    MarkersAlone count new ∧ tablesIn count new = tablesIn count old := by
  simpa using exchangeable [] [] (by simpa using alone)

theorem trans (firstStep : Exchangeable count old new) (secondStep : Exchangeable count new other) :
    Exchangeable count old other := by
  intro first second alone
  obtain ⟨aloneNew, sameNew⟩ := firstStep first second alone
  obtain ⟨aloneOther, same⟩ := secondStep first second aloneNew
  exact ⟨aloneOther, same.trans sameNew⟩

theorem append {more newMore : Text} (exchangeable : Exchangeable count old new)
    (moreExchangeable : Exchangeable count more newMore) :
    Exchangeable count (old ++ more) (new ++ newMore) := by
  intro first second alone
  rw [List.append_assoc] at alone
  obtain ⟨aloneNew, sameNew⟩ := exchangeable first (more ++ second) alone
  rw [← List.append_assoc] at aloneNew
  obtain ⟨aloneBoth, same⟩ := moreExchangeable (first ++ new) second aloneNew
  simp only [List.append_assoc] at aloneBoth same ⊢
  exact ⟨aloneBoth, same.trans sameNew⟩

/-- A token that holds no marker gives way to a text without one. -/
theorem of_enclosed (enclosed : IsEnclosed old) (free : markerEdge ∉ new)
    (oldFree : MarkersAlone count old → markerEdge ∉ old) : Exchangeable count old new := by
  intro first second alone
  obtain ⟨-, embeds, -, tables⟩ := alone.divide enclosed
  obtain ⟨aloneNew, newTables⟩ := alone.exchange enclosed (markersAlone_of_free free)
    (fun member => absurd (Text.mem_of_mem_firstLine member) free)
    (fun member => absurd (Text.mem_of_mem_lastLine member) free)
  rw [tables, newTables, tablesIn_of_free free, tablesIn_of_free (oldFree embeds.alone)]
  exact ⟨aloneNew, rfl⟩

/-- White space up to a line break gives way to a blank line. -/
theorem of_blanks {blanks : Text} (allBlank : isAllBlank blanks = true) :
    Exchangeable count (blanks ++ ['\n']) ['\n', '\n'] := by
  intro first second alone
  have free := edge_not_mem_of_isAllBlank allBlank
  have apart : Apart first blanks := .inr (.inr (List.all_eq_true.mpr fun d member =>
    List.all_eq_true.mp allBlank d (Text.mem_of_mem_firstLine member)))
  have whole : first ++ (blanks ++ ['\n'] ++ second) = (first ++ blanks) ++ '\n' :: second := by simp
  have blankLine : first ++ (['\n', '\n'] ++ second) = first ++ '\n' :: ([] ++ '\n' :: second) := rfl
  rw [whole] at alone ⊢
  rw [blankLine]
  simp only [markersAlone_break_iff, tablesIn_break, apart.markersAlone_append_iff,
    apart.tablesIn_append, tablesIn_of_free free, tablesIn_of_free List.not_mem_nil] at alone ⊢
  exact ⟨⟨alone.1.1, markersAlone_of_free List.not_mem_nil, alone.2⟩, by simp⟩

end Exchangeable

/-! ### Embedded texts -/

namespace Embeds

variable {text old other : Text}

theorem of_free (free : markerEdge ∉ text) : Embeds count text :=
  ⟨markersAlone_of_free free, fun member => free (Text.mem_of_mem_firstLine member),
    fun member => free (Text.mem_of_mem_lastLine member)⟩

theorem apart (embeds : Embeds count text) (otherEmbeds : Embeds count other) : Apart text other :=
  .inl ⟨embeds.last, otherEmbeds.first⟩

theorem append (embeds : Embeds count text) (otherEmbeds : Embeds count other) :
    Embeds count (text ++ other) where
  alone := (embeds.apart otherEmbeds).markersAlone_append_iff.mpr ⟨embeds.alone, otherEmbeds.alone⟩
  first member := (Text.mem_firstLine_append member).elim embeds.first otherEmbeds.first
  last member := (Text.mem_lastLine_append member).elim embeds.last otherEmbeds.last

/-- What stands between delimiters is embedded. -/
theorem of_delimiters {opening closing : Char} (opens : isDelimiter opening = true)
    (closes : isDelimiter closing = true) (alone : MarkersAlone count (opening :: (text ++ [closing]))) :
    Embeds count text := by
  have atOpening : MarkersAlone count ([] ++ opening :: (text ++ [closing])) := alone
  have atClosing : MarkersAlone count ((opening :: text) ++ closing :: []) := alone
  have first : markerEdge ∉ firstLine text := fun member =>
    (atOpening.beside_delimiter opens).2 (Text.mem_firstLine_append_of_left member)
  have last : markerEdge ∉ lastLine text := fun member =>
    (atClosing.beside_delimiter closes).1 (@Text.mem_lastLine_append_of_right [opening] text _ member)
  have openingFree : markerEdge ∉ [opening] := fun member => by
    rw [← List.mem_singleton.mp member] at opens
    cases opens
  have closingFree : markerEdge ∉ [closing] := fun member => by
    rw [← List.mem_singleton.mp member] at closes
    cases closes
  have apartClosing : Apart text [closing] :=
    .inl ⟨last, fun member => closingFree (Text.mem_of_mem_firstLine member)⟩
  have apart : Apart [opening] (text ++ [closing]) :=
    .inl ⟨fun member => openingFree (Text.mem_of_mem_lastLine member), fun member =>
      (Text.mem_firstLine_append member).elim first
        fun inClosing => closingFree (Text.mem_of_mem_firstLine inClosing)⟩
  have inner : MarkersAlone count (text ++ [closing]) := (apart.markersAlone_append_iff.mp alone).2
  exact ⟨(apartClosing.markersAlone_append_iff.mp inner).1, first, last⟩

/-- Embedded texts can be told by putting them in brackets. -/
theorem iff_brackets : Embeds count text ↔ MarkersAlone count (['['] ++ (text ++ [']'])) := by
  have opening : Embeds count ['['] := .of_free (by decide)
  have closing : Embeds count [']'] := .of_free (by decide)
  exact ⟨fun embeds => (opening.append (embeds.append closing)).alone, of_delimiters rfl rfl⟩

theorem tablesIn_brackets (embeds : Embeds count text) :
    tablesIn count (['['] ++ (text ++ [']'])) = tablesIn count text := by
  have openingFree : markerEdge ∉ ['['] := by decide
  have closingFree : markerEdge ∉ [']'] := by decide
  have opening : Embeds count ['['] := .of_free openingFree
  have closing : Embeds count [']'] := .of_free closingFree
  rw [(opening.apart (embeds.append closing)).tablesIn_append, (embeds.apart closing).tablesIn_append,
    tablesIn_of_free openingFree, tablesIn_of_free closingFree, List.nil_append, List.append_nil]

theorem exchange (embeds : Embeds count old) (exchangeable : Exchangeable count old new) :
    Embeds count new ∧ tablesIn count new = tablesIn count old := by
  obtain ⟨alone, same⟩ := exchangeable ['['] [']'] (iff_brackets.mp embeds)
  have embedsNew := iff_brackets.mpr alone
  rw [embedsNew.tablesIn_brackets, embeds.tablesIn_brackets] at same
  exact ⟨embedsNew, same⟩

end Embeds

/-! ### Trimmed texts -/

section Trim

variable {text : Text}

/-- White space around a text neither hides its markers nor shows others. -/
theorem markersAlone_trim_iff :
    (MarkersAlone count text ↔ MarkersAlone count (Text.trim text)) ∧
      tablesIn count text = tablesIn count (Text.trim text) := by
  obtain ⟨front, back, frontBlank, backBlank, whole⟩ := Text.exists_blanks_trim_blanks text
  have frontFree := edge_not_mem_of_isAllBlank (List.all_eq_true.mpr frontBlank)
  have backFree := edge_not_mem_of_isAllBlank (List.all_eq_true.mpr backBlank)
  have apart : Apart front (Text.trim text ++ back) := .inr (.inl (List.all_eq_true.mpr fun d member =>
    frontBlank d (Text.mem_of_mem_lastLine member)))
  have apartBack : Apart (Text.trim text) back := .inr (.inr (List.all_eq_true.mpr fun d member =>
    backBlank d (Text.mem_of_mem_firstLine member)))
  constructor
  · conv_lhs => rw [whole]
    rw [apart.markersAlone_append_iff, apartBack.markersAlone_append_iff]
    simp [markersAlone_of_free frontFree, markersAlone_of_free backFree]
  · conv_lhs => rw [whole]
    rw [apart.tablesIn_append, apartBack.tablesIn_append, tablesIn_of_free frontFree,
      tablesIn_of_free backFree, List.nil_append, List.append_nil]

/-- In a trimmed text a marker on the first line begins the text. -/
theorem head?_trim_of_marker (alone : MarkersAlone count (Text.trim text))
    (member : markerEdge ∈ firstLine (Text.trim text)) :
    (Text.trim text).head? = some markerEdge := by
  cases isHead : (Text.trim text).head? with
  | none =>
      rw [List.head?_eq_none_iff.mp isHead] at member
      cases member
  | some d =>
      have notBlank := Text.isBlank_of_head?_trim isHead
      have noBreak : d ≠ '\n' := by
        rintro rfl
        cases notBlank
      obtain ⟨rest, isTrimmed⟩ := List.head?_eq_some_iff.mp isHead
      rw [isTrimmed] at alone member
      rw [Text.firstLine_cons noBreak] at member
      obtain ⟨index, -, isMarker⟩ := alone (d :: Text.firstLine rest) (by
        rw [Text.lines_eq_firstLine_cons, Text.firstLine_cons noBreak]
        exact List.mem_cons_self) member
      have starts := Text.head?_trim (d :: Text.firstLine rest)
      rw [isMarker, Text.trimStart_of_not_blank notBlank] at starts
      exact starts.symm

/-- In a trimmed text a marker on the last line ends the text. -/
theorem getLast?_trim_of_marker (alone : MarkersAlone count (Text.trim text))
    (member : markerEdge ∈ lastLine (Text.trim text)) :
    (Text.trim text).getLast? = some markerEdge := by
  cases isLast : (Text.trim text).getLast? with
  | none =>
      rw [List.getLast?_eq_none_iff.mp isLast] at member
      cases member
  | some d =>
      have notBlank := Text.isBlank_of_getLast?_trim isLast
      have noBreak : d ≠ '\n' := by
        rintro rfl
        cases notBlank
      obtain ⟨front, isTrimmed⟩ := List.getLast?_eq_some_iff.mp isLast
      rw [isTrimmed] at alone member
      rw [Text.lastLine_concat front noBreak] at member
      obtain ⟨index, -, isMarker⟩ := alone (lastLine front ++ [d]) (by
        rw [Text.lines_eq_append_lastLine, Text.lastLine_concat front noBreak]
        simp) member
      rw [Text.trim, Text.trimStart_append_cons _ notBlank, Text.trimEnd_append_cons _ notBlank] at isMarker
      have ends : (marker index).getLast? = some d := isMarker ▸ List.getLast?_concat ..
      exact ends.symm.trans (List.getLast?_concat ..)

end Trim

end Covenant.Word
