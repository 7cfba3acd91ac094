import Covenant.Proofs.Template.Nest

/-!
# Layers

Any row of parts is a nest, followed by an opening tag that is never closed, followed by a nest
inside of it, and so on.  The tags that are never closed stay where they are, so a pass works on
the nests between them.
-/

namespace Covenant

/-- Nests with an opening tag between neighbours that is never closed. -/
inductive Layers where
  | last (nest : Nest)
  | more (nest : Nest) (opening : Tag) (rest : Layers)

namespace Layers

def parts : Layers → List Part
  | last nest => nest.parts
  | more nest opening rest => nest.parts ++ .tagged opening :: rest.parts

def Matched : Option Tag → Layers → Prop
  | around, last nest => nest.Matched around
  | around, more nest opening rest =>
      nest.Matched around ∧ opening.isOpen = true ∧ rest.Matched (some opening)

def pairs : Layers → List (Tag × Tag)
  | last nest => nest.pairs
  | more nest _ rest => nest.pairs ++ rest.pairs

/-- The stray tags inside the given opening tags, each with the tags around it. -/
def strays : List Tag → Layers → List (Tag × List Tag)
  | around, last nest => nest.strays around
  | around, more nest opening rest => nest.strays around ++ rest.strays (opening :: around)

/-- The given opening tags with those that are never closed on top of them. -/
def unclosed : List Tag → Layers → List Tag
  | around, last _ => around
  | around, more _ opening rest => rest.unclosed (opening :: around)

def segments : Layers → List Segment
  | last nest => nest.segments
  | more nest opening rest => nest.segments ++ .kept (.tagged opening) :: rest.segments

def reduced (exchange : Exchange) : Layers → Layers
  | last nest => last (nest.reduced exchange)
  | more nest opening rest => more (nest.reduced exchange) opening (rest.reduced exchange)

theorem pairing_parts {layers : Layers} {around : List Tag} (matched : layers.Matched around.head?) :
    pairing around (tagsIn layers.parts) =
      ⟨layers.pairs, layers.strays around, layers.unclosed around⟩ := by
  induction layers generalizing around with
  | last nest =>
      have scanned := nest.pairing_matched matched []
      simpa [parts, pairing, pairs, strays, unclosed] using scanned
  | more nest opening rest ih =>
      obtain ⟨matchedNest, isOpen, matchedRest⟩ := matched
      rw [parts, tagsIn_append, tagsIn_tagged_cons, nest.pairing_matched matchedNest,
        pairing_opening isOpen, @ih (opening :: around) matchedRest]
      rfl

theorem ofParts_inside {nest : Nest} {opening : Tag} (matched : nest.Matched (some opening))
    {rest : List Part} (leaves : rest = [] ∨ ∃ other later, rest = .tagged other :: later ∧
      other.isOpen = true) :
    Segment.ofParts (some ⟨opening, []⟩) (nest.parts ++ rest) =
      .kept (.tagged opening) :: (nest.segments ++ Segment.ofParts none rest) := by
  by_cases flat : nest.height = 0
  · rw [Segment.ofParts_some_strays _ (Nest.tagsIn_of_flat flat matched), Nest.segments_of_flat flat]
    rcases leaves with rfl | ⟨other, later, rfl, isOpen⟩
    · simp [Segment.ofParts, Segment.keptAll, Candidate.addAll, Candidate.parts]
    · simp [Segment.ofParts, isOpen, Segment.keptAll, Candidate.addAll, Candidate.parts]
  · rw [Nest.ofParts_matched nest matched (some ⟨opening, []⟩) (by simp) (.inr flat)]
    simp [Candidate.parts, Segment.keptAll]

theorem ofParts_of_inside {layers : Layers} {opening : Tag} (matched : layers.Matched (some opening)) :
    Segment.ofParts (some ⟨opening, []⟩) layers.parts =
      .kept (.tagged opening) :: layers.segments := by
  induction layers generalizing opening with
  | last nest =>
      have inside := ofParts_inside matched (.inl rfl)
      simpa [parts, segments, Segment.ofParts, Segment.keptAll] using inside
  | more nest other rest ih =>
      obtain ⟨matchedNest, isOpen, matchedRest⟩ := matched
      rw [parts, ofParts_inside matchedNest (.inr ⟨other, rest.parts, rfl, isOpen⟩), Segment.ofParts,
        if_pos isOpen, ih matchedRest]
      rfl

theorem ofParts_of_matched {layers : Layers} (matched : layers.Matched none) :
    Segment.ofParts none layers.parts = layers.segments := by
  cases layers with
  | last nest => exact Nest.ofParts_of_matched matched
  | more nest opening rest =>
      obtain ⟨matchedNest, isOpen, matchedRest⟩ := matched
      rw [parts, nest.ofParts_matched matchedNest none (by simp) (.inl rfl), Segment.ofParts,
        if_pos isOpen, ofParts_of_inside matchedRest]
      rfl

theorem flatMap_exchanged_segments (exchange : Exchange) (layers : Layers) :
    layers.segments.flatMap (Segment.exchanged exchange) = (layers.reduced exchange).parts := by
  induction layers with
  | last nest => exact nest.flatMap_exchanged_segments exchange
  | more nest opening rest ih =>
      simp [segments, reduced, parts, ih, nest.flatMap_exchanged_segments, Segment.exchanged]

theorem pass_of_matched (exchange : Exchange) {layers : Layers} (matched : layers.Matched none) :
    pass exchange layers.parts = (layers.reduced exchange).parts := by
  rw [pass, ofParts_of_matched matched, flatMap_exchanged_segments]

/-- The layers with something done to the first nest. -/
def mapFirst (change : Nest → Nest) : Layers → Layers
  | last nest => last (change nest)
  | more nest opening rest => more (change nest) opening rest

end Layers

/-! ## Every row of parts has layers -/

/-- Parts inside open tags: nests, each followed by the tag that closes the innermost open tag,
and layers that close none. -/
inductive Descent where
  | stays (layers : Layers)
  | leaves (nest : Nest) (closing : Tag) (rest : Descent)

namespace Descent

def parts : Descent → List Part
  | stays layers => layers.parts
  | leaves nest closing rest => nest.parts ++ .tagged closing :: rest.parts

def Matched : Descent → List Tag → Prop
  | stays layers, around => layers.Matched around.head?
  | leaves _ _ _, [] => False
  | leaves nest closing rest, opening :: outer =>
      nest.Matched (some opening) ∧ closing.isOpen = false ∧ opening.key = closing.key ∧
        rest.Matched outer

/-- The descent with something done to the first nest. -/
def mapFirst (change : Nest → Nest) : Descent → Descent
  | stays layers => stays (layers.mapFirst change)
  | leaves nest closing rest => leaves (change nest) closing rest

section Changes

variable {change : Nest → Nest} {before : List Part} {around : List Tag} {descent : Descent}

theorem parts_mapFirst (adds : ∀ nest : Nest, (change nest).parts = before ++ nest.parts) :
    (descent.mapFirst change).parts = before ++ descent.parts := by
  cases descent with
  | stays layers =>
      cases layers <;> simp [mapFirst, parts, Layers.mapFirst, Layers.parts, adds]
  | leaves nest closing rest => simp [mapFirst, parts, adds]

theorem matched_mapFirst (keeps : ∀ nest : Nest, nest.Matched around.head? →
      (change nest).Matched around.head?) (matched : descent.Matched around) :
    (descent.mapFirst change).Matched around := by
  cases descent with
  | stays layers =>
      cases layers with
      | last nest => exact keeps nest matched
      | more nest opening rest => exact ⟨keeps nest matched.1, matched.2⟩
  | leaves nest closing rest =>
      cases around with
      | nil => exact matched.elim
      | cons opening outer => exact ⟨keeps nest matched.1, matched.2⟩

end Changes

theorem exists_matched (parts : List Part) (around : List Tag) :
    ∃ descent : Descent, descent.Matched around ∧ descent.parts = parts := by
  induction parts generalizing around with
  | nil => exact ⟨stays (.last .nil), trivial, rfl⟩
  | cons part parts ih =>
      have leafAdds (nest : Nest) : (Nest.leaf [part] nest).parts = [part] ++ nest.parts := rfl
      cases part with
      | plain c =>
          obtain ⟨descent, matched, rfl⟩ := ih around
          exact ⟨descent.mapFirst (.leaf [.plain c]),
            matched_mapFirst (fun nest matchedNest => ⟨nofun, matchedNest⟩) matched,
            parts_mapFirst leafAdds⟩
      | tagged tag =>
          rcases tag.opens_or_stray_or_fits around with
            isOpen | stray | ⟨isClosing, innermost, outer, rfl, fits⟩
          · obtain ⟨descent, matched, rfl⟩ := ih (tag :: around)
            cases descent with
            | stays layers =>
                exact ⟨stays (.more .nil tag layers), ⟨trivial, isOpen, matched⟩, rfl⟩
            | leaves nest closing rest =>
                obtain ⟨matchedNest, isClosing, fits, matchedRest⟩ := matched
                have blockAdds (later : Nest) : (Nest.block tag nest closing later).parts =
                    .tagged tag :: (nest.parts ++ [.tagged closing]) ++ later.parts := by
                  simp [Nest.parts]
                refine ⟨rest.mapFirst (.block tag nest closing),
                  matched_mapFirst (fun _ matchedLater =>
                    ⟨isOpen, isClosing, fits, matchedNest, matchedLater⟩) matchedRest, ?_⟩
                rw [parts_mapFirst blockAdds]
                simp [Descent.parts]
          · obtain ⟨descent, matched, rfl⟩ := ih around
            exact ⟨descent.mapFirst (.leaf [.tagged tag]),
              matched_mapFirst (fun nest matchedNest => ⟨by simpa using stray, matchedNest⟩) matched,
              parts_mapFirst leafAdds⟩
          · obtain ⟨descent, matched, rfl⟩ := ih outer
            exact ⟨leaves .nil tag descent, ⟨trivial, isClosing, fits, matched⟩, rfl⟩

end Descent

namespace Layers

/-- Every row of parts has layers in which the tags pair as in a scan. -/
theorem exists_matched (parts : List Part) :
    ∃ layers : Layers, layers.Matched none ∧ layers.parts = parts := by
  obtain ⟨descent, matched, rfl⟩ := Descent.exists_matched parts []
  cases descent with
  | stays layers => exact ⟨layers, matched, rfl⟩
  | leaves nest closing rest => exact matched.elim

end Layers

end Covenant
