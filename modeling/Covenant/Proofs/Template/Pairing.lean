import Covenant.Proofs.Template.Trace

/-!
# How tags pair

A scan reports innermost blocks and faults only.  Which tags pair is decided by the same stack:
a closing tag pairs with the innermost open tag if the two have the same key, and is a stray
otherwise.  `pairing` keeps all of that, with the open tags around every stray, and the faults of
a scan are read off it.
-/

namespace Covenant

structure Pairing where
  /-- The opening and the closing tag of every block, in the order in which blocks end. -/
  pairs : List (Tag × Tag)
  /-- The closing tags without a partner, each with the open tags around it, innermost first. -/
  strays : List (Tag × List Tag)
  /-- The opening tags that are never closed, innermost first. -/
  unclosed : List Tag

/-- Pairs tags inside the given open tags. -/
def pairing : List Tag → List Tag → Pairing
  | around, [] => ⟨[], [], around⟩
  | around, tag :: tags =>
      if tag.isOpen then pairing (tag :: around) tags
      else match around with
        | [] =>
            let later := pairing [] tags
            { later with strays := (tag, []) :: later.strays }
        | innermost :: outer =>
            if innermost.key = tag.key then
              let later := pairing outer tags
              { later with pairs := (innermost, tag) :: later.pairs }
            else
              let later := pairing (innermost :: outer) tags
              { later with strays := (tag, innermost :: outer) :: later.strays }

/-- A closing tag that does not fit the opening tag around it. -/
def IsStray (around : Option Tag) (tag : Tag) : Prop :=
  tag.isOpen = false ∧ ∀ opening ∈ around, opening.key ≠ tag.key

theorem Tag.opens_or_stray_or_fits (tag : Tag) (around : List Tag) :
    tag.isOpen = true ∨ IsStray around.head? tag ∨
      (tag.isOpen = false ∧ ∃ innermost outer, around = innermost :: outer ∧
        innermost.key = tag.key) := by
  by_cases isOpen : tag.isOpen = true
  · exact .inl isOpen
  · have isClosing : tag.isOpen = false := by simpa using isOpen
    cases around with
    | nil => exact .inr (.inl ⟨isClosing, nofun⟩)
    | cons innermost outer =>
        by_cases fits : innermost.key = tag.key
        · exact .inr (.inr ⟨isClosing, innermost, outer, rfl, fits⟩)
        · exact .inr (.inl ⟨isClosing, by simpa using fits⟩)

/-- The fault of a closing tag without a partner. -/
def strayFault : Tag × List Tag → MarkupFault
  | (tag, []) => .unopened tag
  | (tag, innermost :: _) => .mismatched tag innermost

@[simp]
theorem tag_strayFault (stray : Tag × List Tag) : (strayFault stray).tag = stray.1 := by
  obtain ⟨tag, _ | ⟨innermost, outer⟩⟩ := stray <;> rfl

/-- The faults of a scan: the strays, then the tags that are never closed. -/
def Pairing.faults (found : Pairing) : List MarkupFault :=
  found.strays.map strayFault ++ found.unclosed.reverse.map .unclosed

section Steps

variable {around : List Tag} {tag opening closing : Tag} {tags : List Tag}

theorem pairing_opening (isOpen : tag.isOpen = true) :
    pairing around (tag :: tags) = pairing (tag :: around) tags := by
  cases around <;> simp [pairing, isOpen]

theorem pairing_fitting (isClosing : closing.isOpen = false) (fits : opening.key = closing.key) :
    pairing (opening :: around) (closing :: tags) =
      { pairing around tags with pairs := (opening, closing) :: (pairing around tags).pairs } := by
  simp [pairing, isClosing, fits]

theorem pairing_stray (stray : IsStray around.head? tag) :
    pairing around (tag :: tags) =
      { pairing around tags with strays := (tag, around) :: (pairing around tags).strays } := by
  obtain ⟨isClosing, noFit⟩ := stray
  cases around with
  | nil => simp [pairing, isClosing]
  | cons innermost outer =>
      have otherKey : innermost.key ≠ tag.key := noFit innermost rfl
      simp [pairing, isClosing, otherKey]

theorem pairing_strays {strays : List Tag} (each : ∀ tag ∈ strays, IsStray around.head? tag) :
    pairing around (strays ++ tags) =
      { pairing around tags with
        strays := strays.map (·, around) ++ (pairing around tags).strays } := by
  induction strays with
  | nil => rfl
  | cons tag strays ih =>
      have later := ih fun other member => each other (by simp [member])
      rw [List.cons_append, pairing_stray (each tag (by simp)), later]
      rfl

end Steps

theorem faults_pairTags (waiting : List OpenTag) (tags : List Tag) :
    (pairTags waiting tags).faults = (pairing (waiting.map (·.tag)) tags).faults := by
  induction tags generalizing waiting with
  | nil => simp [pairTags, pairing, Pairing.faults]
  | cons tag tags ih =>
      by_cases isOpen : tag.isOpen = true
      · have samePath : (pushOpen tag waiting).map (·.tag) = tag :: waiting.map (·.tag) := by
          cases waiting <;> rfl
        rw [pairing_opening isOpen, ← samePath, ← ih]
        cases waiting <;> simp [pairTags, isOpen]
      · have isClosing : tag.isOpen = false := by simpa using isOpen
        cases waiting with
        | nil => simpa [pairTags, pairing, isClosing, Pairing.faults, strayFault] using ih []
        | cons innermost outer =>
            by_cases fits : innermost.tag.key = tag.key
            · have later := ih outer
              rw [List.map_cons, pairing_fitting isClosing fits]
              simp only [pairTags, isClosing, Bool.false_eq_true, if_false, fits, if_true]
              split <;> exact later
            · have later := ih (innermost :: outer)
              simpa [pairTags, pairing, isClosing, fits, Pairing.faults, strayFault] using later

/-! ## Places do not matter -/

theorem isStray_unplaced {around : List Tag} {tag : Tag} (stray : IsStray around.head? tag) :
    IsStray (around.map Tag.unplaced).head? tag.unplaced := by
  refine ⟨stray.1, ?_⟩
  cases around with
  | nil => nofun
  | cons innermost outer =>
      intro opening isInnermost
      cases isInnermost
      exact stray.2 innermost rfl

theorem pairing_unplaced (around tags : List Tag) :
    pairing (around.map Tag.unplaced) (tags.map Tag.unplaced) =
      { pairs := (pairing around tags).pairs.map (Prod.map Tag.unplaced Tag.unplaced)
        strays := (pairing around tags).strays.map (Prod.map Tag.unplaced (List.map Tag.unplaced))
        unclosed := (pairing around tags).unclosed.map Tag.unplaced } := by
  induction tags generalizing around with
  | nil => rfl
  | cons tag tags ih =>
      rcases tag.opens_or_stray_or_fits around with
        isOpen | stray | ⟨isClosing, innermost, outer, rfl, fits⟩
      · have isOpenUnplaced : tag.unplaced.isOpen = true := isOpen
        rw [List.map_cons, pairing_opening isOpen, pairing_opening isOpenUnplaced, ← List.map_cons, ih]
      · rw [List.map_cons, pairing_stray stray, pairing_stray (isStray_unplaced stray), ih]
        rfl
      · have fitsUnplaced : innermost.unplaced.key = tag.unplaced.key := fits
        have isClosingUnplaced : tag.unplaced.isOpen = false := isClosing
        rw [List.map_cons, List.map_cons, pairing_fitting isClosing fits,
          pairing_fitting isClosingUnplaced fitsUnplaced, ih outer]
        rfl

theorem message_strayFault_unplaced (stray : Tag × List Tag) :
    (strayFault (stray.map Tag.unplaced (List.map Tag.unplaced))).message =
      (strayFault stray).message := by
  obtain ⟨tag, _ | ⟨innermost, outer⟩⟩ := stray <;> rfl

theorem messages_unplaced (pairs : List (Tag × Tag)) (strays : List (Tag × List Tag))
    (unclosed : List Tag) :
    (Pairing.faults ⟨pairs, strays.map (Prod.map Tag.unplaced (List.map Tag.unplaced)),
        unclosed.map Tag.unplaced⟩).map MarkupFault.message =
      (Pairing.faults ⟨pairs, strays, unclosed⟩).map MarkupFault.message := by
  simp only [Pairing.faults, List.map_append, List.map_map, ← List.map_reverse]
  congr 1
  exact List.map_congr_left fun stray _ => message_strayFault_unplaced stray

theorem map_unplaced_placedTags (start : Nat) (parts : List Part) :
    (Part.placedTags start parts).map Tag.unplaced = (tagsIn parts).map Tag.unplaced := by
  induction parts generalizing start with
  | nil => rfl
  | cons part parts ih =>
      cases part with
      | plain c => exact ih (start + 1)
      | tagged tag => exact congrArg (tag.unplaced :: ·) (ih (start + tag.source.length))

theorem messages_faultsOf (parts : List Part) :
    (faultsOf parts).map MarkupFault.message =
      (pairing [] (tagsIn parts)).faults.map MarkupFault.message := by
  have placed := pairing_unplaced [] (Part.placedTags 0 parts)
  have own := pairing_unplaced [] (tagsIn parts)
  rw [map_unplaced_placedTags, own] at placed
  have sameMessages := congrArg (fun found => found.faults.map MarkupFault.message) placed
  simp only [messages_unplaced] at sameMessages
  rw [faultsOf, faults_pairTags]
  exact sameMessages.symm

end Covenant
