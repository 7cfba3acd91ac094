import Covenant.Proofs.Template.Pairing

/-!
# Nested blocks

A nest is a row of parts in which the tags that pair are known: leaves, and blocks around nests.
A nest is matched when a scan pairs its tags in the same way, which leaves as stray tags just the
closing tags in its leaves.  One pass then exchanges exactly the blocks of height one, so after
any number of passes the blocks up to that height are exchanged, from the inside out.

What a scan of a matched nest finds is said of the parts of a nest with anything after them, because a
nest inside a block is followed by the closing tag and by all that stands after the block.
-/

namespace Covenant

inductive Nest where
  | nil
  | leaf (content : List Part) (rest : Nest)
  | block (opening : Tag) (inner : Nest) (closing : Tag) (rest : Nest)

namespace Nest

def parts : Nest → List Part
  | nil => []
  | leaf content rest => content ++ rest.parts
  | block opening inner closing rest =>
      .tagged opening :: (inner.parts ++ .tagged closing :: rest.parts)

def height : Nest → Nat
  | nil => 0
  | leaf _ rest => rest.height
  | block _ inner _ rest => max (inner.height + 1) rest.height

/-- The tags of every block pair, and the tags in leaves are strays. -/
def Matched : Option Tag → Nest → Prop
  | _, nil => True
  | around, leaf content rest =>
      (∀ tag ∈ tagsIn content, IsStray around tag) ∧ rest.Matched around
  | around, block opening inner closing rest =>
      opening.isOpen = true ∧ closing.isOpen = false ∧ opening.key = closing.key ∧
        inner.Matched (some opening) ∧ rest.Matched around

def reduced (exchange : Exchange) : Nest → Nest
  | nil => nil
  | leaf content rest => leaf content (rest.reduced exchange)
  | block opening inner closing rest =>
      if inner.height = 0 then leaf (exchange opening inner.parts) (rest.reduced exchange)
      else block opening (inner.reduced exchange) closing (rest.reduced exchange)

/-- The parts of a nest in which the blocks up to a height are exchanged. -/
def settled (exchange : Exchange) (limit : Nat) : Nest → List Part
  | nil => []
  | leaf content rest => content ++ rest.settled exchange limit
  | block opening inner closing rest =>
      (if inner.height < limit then exchange opening (inner.settled exchange limit)
      else .tagged opening :: (inner.settled exchange limit ++ [.tagged closing])) ++
        rest.settled exchange limit

def segments : Nest → List Segment
  | nil => []
  | leaf content rest => Segment.keptAll content ++ rest.segments
  | block opening inner closing rest =>
      (if inner.height = 0 then [.block ⟨opening, inner.parts, closing⟩]
      else .kept (.tagged opening) :: (inner.segments ++ [.kept (.tagged closing)])) ++
        rest.segments

/-- The tags of every block, in the order in which blocks end. -/
def pairs : Nest → List (Tag × Tag)
  | nil => []
  | leaf _ rest => rest.pairs
  | block opening inner closing rest => inner.pairs ++ (opening, closing) :: rest.pairs

/-- The stray tags inside the given opening tags, each with the tags around it. -/
def strays : List Tag → Nest → List (Tag × List Tag)
  | _, nil => []
  | around, leaf content rest => (tagsIn content).map (·, around) ++ rest.strays around
  | around, block opening inner _ rest =>
      inner.strays (opening :: around) ++ rest.strays around

variable (exchange : Exchange)

theorem height_reduced (nest : Nest) : (nest.reduced exchange).height = nest.height - 1 := by
  induction nest with
  | nil => rfl
  | leaf content rest ih => simpa [reduced, height] using ih
  | block opening inner closing rest innerIH restIH =>
      by_cases flat : inner.height = 0
      · simp only [reduced, flat, if_true, height, restIH]
        omega
      · simp only [reduced, flat, if_false, height, innerIH, restIH]
        omega

theorem settled_of_flat (limit : Nat) {nest : Nest} (flat : nest.height = 0) :
    nest.settled exchange limit = nest.parts := by
  induction nest with
  | nil => rfl
  | leaf content rest ih => simp [settled, parts, ih (by simpa [height] using flat)]
  | block opening inner closing rest => simp [height] at flat

theorem settled_zero (nest : Nest) : nest.settled exchange 0 = nest.parts := by
  induction nest with
  | nil => rfl
  | leaf content rest ih => simp [settled, parts, ih]
  | block opening inner closing rest innerIH restIH => simp [settled, parts, innerIH, restIH]

theorem settled_reduced (limit : Nat) (nest : Nest) :
    (nest.reduced exchange).settled exchange limit = nest.settled exchange (limit + 1) := by
  induction nest with
  | nil => rfl
  | leaf content rest ih => simp [reduced, settled, ih]
  | block opening inner closing rest innerIH restIH =>
      by_cases flat : inner.height = 0
      · simp [reduced, flat, settled, settled_of_flat exchange (limit + 1) flat, restIH]
      · have lower : inner.height - 1 < limit ↔ inner.height < limit + 1 := by omega
        simp only [reduced, flat, if_false, settled, height_reduced, lower, innerIH, restIH]

theorem segments_of_flat {nest : Nest} (flat : nest.height = 0) :
    nest.segments = Segment.keptAll nest.parts := by
  induction nest with
  | nil => rfl
  | leaf content rest ih =>
      simp [segments, parts, ih (by simpa [height] using flat), Segment.keptAll]
  | block opening inner closing rest => simp [height] at flat

theorem flatMap_exchanged_segments (nest : Nest) :
    nest.segments.flatMap (Segment.exchanged exchange) = (nest.reduced exchange).parts := by
  induction nest with
  | nil => rfl
  | leaf content rest ih => simp [segments, reduced, parts, ih]
  | block opening inner closing rest innerIH restIH =>
      by_cases flat : inner.height = 0
      · simp [segments, reduced, flat, parts, restIH, Segment.exchanged]
      · simp [segments, reduced, flat, parts, innerIH, restIH, Segment.exchanged]

theorem spans_segments_eq_nil_iff (nest : Nest) :
    nest.segments.filterMap Segment.span? = [] ↔ nest.height = 0 := by
  induction nest with
  | nil => simp [segments, height]
  | leaf content rest ih => simpa [segments, height] using ih
  | block opening inner closing rest innerIH restIH =>
      by_cases flat : inner.height = 0
      · simp [segments, height, flat]
      · have innerSpans : inner.segments.filterMap Segment.span? ≠ [] :=
          fun none => flat (innerIH.mp none)
        simp [segments, height, flat, List.filterMap_cons, innerSpans]

end Nest

end Covenant

namespace Covenant

namespace Candidate

/-- The candidate with more parts after it. -/
def addAll (candidate : Candidate) (parts : List Part) : Candidate :=
  { candidate with content := candidate.content ++ parts }

@[simp]
theorem addAll_nil (candidate : Candidate) : candidate.addAll [] = candidate := by
  simp [addAll]

@[simp]
theorem opening_addAll (candidate : Candidate) (parts : List Part) :
    (candidate.addAll parts).opening = candidate.opening := rfl

@[simp]
theorem parts_addAll (candidate : Candidate) (parts : List Part) :
    (candidate.addAll parts).parts = candidate.parts ++ parts := rfl

end Candidate

namespace Segment

@[simp]
theorem keptAll_append (first second : List Part) :
    keptAll (first ++ second) = keptAll first ++ keptAll second := by
  simp [keptAll]

/-- Stray tags and plain characters become part of the content of a candidate. -/
theorem ofParts_some_strays (candidate : Candidate) {content : List Part}
    (strays : ∀ tag ∈ tagsIn content, IsStray (some candidate.opening) tag)
    (rest : List Part) :
    ofParts (some candidate) (content ++ rest) = ofParts (some (candidate.addAll content)) rest := by
  induction content generalizing candidate with
  | nil => simp
  | cons part content ih =>
      have more (candidate' : Candidate) (same : candidate'.opening = candidate.opening) :=
        ih candidate' (by
          intro tag member
          rw [same]
          exact strays tag (by cases part <;> simp [member]))
      cases part with
      | plain c =>
          rw [List.cons_append, ofParts, more _ (by simp)]
          simp [Candidate.add, Candidate.addAll]
      | tagged tag =>
          obtain ⟨isClosing, noFit⟩ := strays tag (by simp)
          have otherKey : candidate.opening.key ≠ tag.key := noFit _ rfl
          rw [List.cons_append, ofParts]
          simp only [isClosing, Bool.false_eq_true, if_false, otherKey]
          rw [more _ (by simp)]
          simp [Candidate.add, Candidate.addAll]

/-- Without a candidate all parts up to the next opening tag are kept. -/
theorem ofParts_none_closings {content : List Part}
    (closings : ∀ tag ∈ tagsIn content, tag.isOpen = false) (rest : List Part) :
    ofParts none (content ++ rest) = keptAll content ++ ofParts none rest := by
  induction content with
  | nil => simp [keptAll]
  | cons part content ih =>
      have more := ih fun tag member => closings tag (by cases part <;> simp [member])
      cases part with
      | plain c => simp [ofParts, more, keptAll]
      | tagged tag => simp [ofParts, more, keptAll, closings tag (by simp)]

end Segment

namespace Nest

theorem tagsIn_of_flat {around : Option Tag} {nest : Nest} (flat : nest.height = 0)
    (matched : nest.Matched around) : ∀ tag ∈ tagsIn nest.parts, IsStray around tag := by
  induction nest with
  | nil => simp [parts]
  | leaf content rest ih =>
      intro tag member
      rcases List.mem_append.mp (by simpa [parts] using member) with member | member
      · exact matched.1 tag member
      · exact ih (by simpa [height] using flat) matched.2 tag member
  | block opening inner closing rest => simp [height] at flat

/-- The segments of a matched nest inside the opening tag of a candidate, or without one. -/
theorem ofParts_matched (nest : Nest) {around : Option Tag} (matched : nest.Matched around)
    (candidate : Option Candidate) (inside : ∀ opened ∈ candidate, around = some opened.opening)
    (settles : candidate = none ∨ nest.height ≠ 0) (rest : List Part) :
    Segment.ofParts candidate (nest.parts ++ rest) =
      Segment.keptAll (Candidate.held candidate) ++ nest.segments ++ Segment.ofParts none rest := by
  induction nest generalizing around candidate rest with
  | nil =>
      rcases settles with rfl | deep
      · simp [parts, segments, Segment.keptAll]
      · simp [height] at deep
  | leaf content nest ih =>
      obtain ⟨strays, matchedRest⟩ := matched
      cases candidate with
      | none =>
          rw [parts, List.append_assoc,
            Segment.ofParts_none_closings (fun tag member => (strays tag member).1),
            ih matchedRest none (by simp) (.inl rfl)]
          simp [segments, Segment.keptAll]
      | some candidate =>
          have aroundIs : around = some candidate.opening := inside candidate rfl
          have deep : nest.height ≠ 0 := by simpa [height] using settles
          rw [parts, List.append_assoc,
            Segment.ofParts_some_strays candidate (by simpa [aroundIs] using strays),
            ih matchedRest (some (candidate.addAll content)) (by simpa using aroundIs)
              (.inr deep)]
          simp [segments]
  | block opening inner closing nest innerIH restIH =>
      obtain ⟨isOpening, isClosing, fits, matchedInner, matchedRest⟩ := matched
      have afterBlock := restIH matchedRest none (by simp) (.inl rfl) rest
      have insideBlock : Segment.ofParts (some ⟨opening, []⟩)
          (inner.parts ++ (.tagged closing :: (nest.parts ++ rest))) =
            (block opening inner closing nest).segments ++ Segment.ofParts none rest := by
        by_cases flat : inner.height = 0
        · rw [Segment.ofParts_some_strays _ (tagsIn_of_flat flat matchedInner), Segment.ofParts]
          simp [isClosing, fits, afterBlock, segments, flat, Candidate.addAll, Segment.keptAll]
        · rw [innerIH matchedInner (some ⟨opening, []⟩) (by simp) (.inr flat), Segment.ofParts]
          simp [isClosing, afterBlock, segments, flat, Candidate.parts, Segment.keptAll]
      simp [parts, Segment.ofParts, isOpening, insideBlock]

theorem ofParts_of_matched {nest : Nest} {around : Option Tag} (matched : nest.Matched around) :
    Segment.ofParts none nest.parts = nest.segments := by
  have whole := ofParts_matched nest matched none (by simp) (.inl rfl) []
  simpa [Segment.ofParts, Segment.keptAll] using whole

theorem pass_of_matched (exchange : Exchange) {nest : Nest} {around : Option Tag}
    (matched : nest.Matched around) : pass exchange nest.parts = (nest.reduced exchange).parts := by
  rw [pass, ofParts_of_matched matched, flatMap_exchanged_segments]

theorem spans_eq_nil_iff {nest : Nest} {around : Option Tag} (matched : nest.Matched around) :
    spans nest.parts = [] ↔ nest.height = 0 := by
  rw [spans, ofParts_of_matched matched, spans_segments_eq_nil_iff]

end Nest

namespace Nest

theorem pairing_matched (nest : Nest) {around : List Tag} (matched : nest.Matched around.head?)
    (tags : List Tag) :
    pairing around (tagsIn nest.parts ++ tags) =
      { pairs := nest.pairs ++ (pairing around tags).pairs
        strays := nest.strays around ++ (pairing around tags).strays
        unclosed := (pairing around tags).unclosed } := by
  induction nest generalizing around tags with
  | nil => rfl
  | leaf content nest ih =>
      obtain ⟨strays, matchedRest⟩ := matched
      simp only [parts, tagsIn_append, List.append_assoc]
      rw [pairing_strays strays, ih matchedRest]
      simp [Nest.strays, Nest.pairs]
  | block opening inner closing nest innerIH restIH =>
      obtain ⟨isOpening, isClosing, fits, matchedInner, matchedRest⟩ := matched
      have insideBlock := @innerIH (opening :: around) matchedInner
        (closing :: (tagsIn nest.parts ++ tags))
      rw [pairing_fitting isClosing fits, restIH matchedRest] at insideBlock
      simp only [parts, tagsIn_tagged_cons, tagsIn_append, List.cons_append, List.append_assoc]
      rw [pairing_opening isOpening, insideBlock]
      simp [Nest.strays, Nest.pairs]

theorem faultsOf_eq_nil {nest : Nest} (matched : nest.Matched none) (noStrays : nest.strays [] = []) :
    faultsOf nest.parts = [] := by
  have scanned := @pairing_matched nest [] matched []
  rw [List.append_nil, noStrays] at scanned
  have messages := messages_faultsOf nest.parts
  rw [scanned] at messages
  simpa [Pairing.faults, pairing] using messages

end Nest

end Covenant
