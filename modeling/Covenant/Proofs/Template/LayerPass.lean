import Covenant.Proofs.Template.LayerTags
import Covenant.Proofs.Template.Pass

/-!
# Runs and the passes over layers

Blocks that shrink leave ever fewer tags, so as many passes as there are tags come to an end.  What
a run takes out stood in the text it began with, and what it drops is not left.  And a closing tag
that has come to fit an opening tag is used up: if all tags opened between the two are closed
between them, no run ends with both in place.
-/

namespace Covenant

/-- The opening and the closing tag of a block. -/
def Span.ends (span : Span) : Tag × Tag := (span.opening, span.closing)

namespace Trace

variable {exchange : Exchange} {parts : List Part} {problems : List Text} {passes : Nat}
  {span : Span} {tag opening closing : Tag}

theorem left_sublist (shrinks : Shrinks exchange) (passes : Nat) (problems : List Text)
    (parts : List Part) : (run exchange passes problems parts).left.Sublist parts := by
  fun_induction run exchange passes problems parts with
  | case1 passes problems parts noted noSpans => exact List.Sublist.refl _
  | case2 problems parts noted hasSpans => exact List.Sublist.refl _
  | case3 problems parts noted hasSpans passes later ih => exact ih.trans (pass_sublist shrinks parts)

/-- A pass over parts with a block takes out a tag at least. -/
theorem length_tagsIn_pass_lt (shrinks : Shrinks exchange) (inOrder : InOrder parts)
    (hasSpans : spans parts ≠ []) :
    (tagsIn (pass exchange parts)).length < (tagsIn parts).length := by
  obtain ⟨span, others, spansAre⟩ := List.exists_cons_of_ne_nil hasSpans
  have member : span ∈ spans parts := by simp [spansAre]
  have sublist := tagsIn_sublist (pass_sublist shrinks parts)
  by_contra notShorter
  have same := sublist.eq_of_length_le (by omega)
  have present := (tagsIn_span_sublist member).subset
    (show span.opening ∈ tagsIn span.parts by simp [Span.parts])
  rw [← same] at present
  exact (ends_not_mem_pass shrinks inOrder member).1 present

theorem finished_of_length_le (shrinks : Shrinks exchange) (inOrder : InOrder parts)
    (enough : (tagsIn parts).length ≤ passes) :
    (run exchange passes problems parts).finished = true := by
  fun_induction run exchange passes problems parts with
  | case1 passes problems parts noted noSpans => rfl
  | case2 problems parts noted hasSpans =>
      have shorter := length_tagsIn_pass_lt shrinks inOrder (by simpa using hasSpans)
      omega
  | case3 problems parts noted hasSpans passes later ih =>
      have shorter := length_tagsIn_pass_lt shrinks inOrder (by simpa using hasSpans)
      exact ih (inOrder.pass shrinks) (by omega)

/-- A block that was taken out is an innermost one, and its tags stood in the text. -/
theorem of_mem_consumed (shrinks : Shrinks exchange)
    (member : span ∈ (run exchange passes problems parts).consumed) :
    span.IsInnermost ∧ (tagsIn span.parts).Sublist (tagsIn parts) := by
  fun_induction run exchange passes problems parts with
  | case1 passes problems parts noted noSpans => simp at member
  | case2 problems parts noted hasSpans => simp at member
  | case3 problems parts noted hasSpans passes later ih =>
      rcases List.mem_append.mp member with now | afterwards
      · exact ⟨isInnermost_of_mem_spans now, tagsIn_span_sublist now⟩
      · obtain ⟨isInnermost, sublist⟩ := ih afterwards
        exact ⟨isInnermost, sublist.trans (tagsIn_sublist (pass_sublist shrinks parts))⟩

theorem ends_present (shrinks : Shrinks exchange)
    (member : span ∈ (run exchange passes problems parts).consumed) :
    span.opening ∈ tagsIn parts ∧ span.closing ∈ tagsIn parts := by
  have inside := (of_mem_consumed shrinks member).2.subset
  exact ⟨inside (by simp [Span.parts]), inside (by simp [Span.parts])⟩

theorem start_lt_of_mem_consumed (shrinks : Shrinks exchange) (inOrder : InOrder parts)
    (member : span ∈ (run exchange passes problems parts).consumed) :
    span.opening.start < span.closing.start := by
  have ordered := List.Pairwise.sublist (of_mem_consumed shrinks member).2 inOrder
  simp only [Span.parts, tagsIn_tagged_cons, tagsIn_append, tagsIn_nil, List.pairwise_cons] at ordered
  exact ordered.1 span.closing (by simp)

/-- What a block of the first pass is exchanged for no later block begins with. -/
theorem mem_later_of_present (shrinks : Shrinks exchange) (inOrder : InOrder parts)
    {later : List Span} (member : span ∈ spans parts ++ later)
    (present : span.opening ∈ tagsIn (pass exchange parts)) : span ∈ later := by
  rcases List.mem_append.mp member with now | afterwards
  · exact absurd present (ends_not_mem_pass shrinks inOrder now).1
  · exact afterwards

theorem not_mem_left (shrinks : Shrinks exchange) (inOrder : InOrder parts)
    (member : span ∈ (run exchange passes problems parts).consumed)
    (inSpan : tag ∈ tagsIn span.parts)
    (dropped : tag ∉ tagsIn (exchange span.opening span.content)) :
    tag ∉ tagsIn (run exchange passes problems parts).left := by
  fun_induction run exchange passes problems parts with
  | case1 passes problems parts noted noSpans => simp at member
  | case2 problems parts noted hasSpans => simp at member
  | case3 problems parts noted hasSpans passes later ih =>
      rcases List.mem_append.mp member with now | afterwards
      · intro isLeft
        exact not_mem_pass shrinks inOrder now inSpan dropped
          ((tagsIn_sublist (left_sublist shrinks _ _ _)).subset isLeft)
      · exact ih (inOrder.pass shrinks) afterwards

/-- All tags that are opened between two tags are closed between them by the given blocks. -/
def ClosedBetween (parts : List Part) (spans : List Span) (opening closing : Tag) : Prop :=
  ∀ tag ∈ tagsIn parts, tag.isOpen = true → opening.start < tag.start →
    tag.start < closing.start → ∃ span ∈ spans,
      span.opening = tag ∧ span.closing.start < closing.start

theorem ClosedBetween.flat (closed : ClosedBetween parts [] opening closing) :
    ∀ tag ∈ tagsIn parts, opening.start < tag.start → tag.start < closing.start →
      tag.isOpen = false := by
  intro tag present afterOpening beforeClosing
  by_contra opens
  obtain ⟨span, member, -⟩ := closed tag present (by simpa using opens) afterOpening beforeClosing
  simp at member

theorem ClosedBetween.pass (shrinks : Shrinks exchange) (inOrder : InOrder parts)
    {later : List Span} (closed : ClosedBetween parts (spans parts ++ later) opening closing) :
    ClosedBetween (pass exchange parts) later opening closing := by
  intro tag present opens afterOpening beforeClosing
  have presentBefore := (tagsIn_sublist (pass_sublist shrinks parts)).subset present
  obtain ⟨span, member, rfl, ends⟩ := closed tag presentBefore opens afterOpening beforeClosing
  exact ⟨span, mem_later_of_present shrinks inOrder member present, rfl, ends⟩

/-- What closes the tags between two tags fits them. -/
theorem ClosedBetween.exists_fitting (shrinks : Shrinks exchange) (inOrder : InOrder parts)
    (closed : ClosedBetween parts (run exchange passes problems parts).consumed opening closing) :
    ∀ tag ∈ tagsIn parts, tag.isOpen = true → opening.start < tag.start →
      tag.start < closing.start → ∃ other ∈ tagsIn parts, tag.key = other.key ∧
        tag.start < other.start ∧ other.start < closing.start := by
  intro tag present opens afterOpening beforeClosing
  obtain ⟨span, member, rfl, ends⟩ := closed tag present opens afterOpening beforeClosing
  exact ⟨span.closing, (ends_present shrinks member).2, (of_mem_consumed shrinks member).1.fits,
    start_lt_of_mem_consumed shrinks inOrder member, ends⟩

/-- Tags that fit do not outlast a run.  All blocks between them are taken out first; then they are
the tags of a block, unless one of them was used before. -/
theorem exists_consumed_of_fitting (shrinks : Shrinks exchange) (inOrder : InOrder parts)
    (finished : (run exchange passes problems parts).finished = true)
    (openingPresent : opening ∈ tagsIn parts) (closingPresent : closing ∈ tagsIn parts)
    (isOpen : opening.isOpen = true) (isClosing : closing.isOpen = false)
    (fits : opening.key = closing.key) (ordered : opening.start < closing.start)
    (closed : ClosedBetween parts (run exchange passes problems parts).consumed opening closing) :
    ∃ span ∈ (run exchange passes problems parts).consumed,
      span.closing = closing ∨
        (span.opening = opening ∧ span.closing.start ≤ closing.start) := by
  have fitting := closed.exists_fitting shrinks inOrder
  fun_induction run exchange passes problems parts with
  | case1 passes problems parts noted noSpans =>
      obtain ⟨span, member, -⟩ := exists_span_of_fitting inOrder openingPresent closingPresent
        isOpen isClosing fits ordered closed.flat
      simp [List.isEmpty_iff.mp noSpans] at member
  | case2 problems parts noted hasSpans => simp at finished
  | case3 problems parts noted hasSpans passes later ih =>
      by_cases flat : ∀ tag ∈ tagsIn parts, opening.start < tag.start →
          tag.start < closing.start → tag.isOpen = false
      · obtain ⟨span, member, same, ends⟩ := exists_span_of_fitting inOrder openingPresent
          closingPresent isOpen isClosing fits ordered flat
        exact ⟨span, List.mem_append_left _ member, .inr ⟨same, ends⟩⟩
      · push Not at flat
        obtain ⟨inner, innerPresent, afterOpening, beforeClosing, innerOpens⟩ := flat
        have innerIsOpen : inner.isOpen = true := by simpa using innerOpens
        rcases opening_mem_pass exchange inOrder openingPresent isOpen innerPresent innerIsOpen
            afterOpening beforeClosing with openingStays | ⟨span, member, same, ends⟩
        · rcases mem_pass_or_mem_span exchange closingPresent with
            closingStays | ⟨span, member, inSpan⟩
          · have closedLater := closed.pass shrinks inOrder
            obtain ⟨span, member, ends⟩ := ih (inOrder.pass shrinks) finished openingStays
              closingStays closedLater (closedLater.exists_fitting shrinks (inOrder.pass shrinks))
            exact ⟨span, List.mem_append_right _ member, ends⟩
          · have otherOpening : span.opening ≠ opening := by
              rintro rfl
              exact (ends_not_mem_pass shrinks inOrder member).1 openingStays
            refine ⟨span, List.mem_append_left _ member, .inl ?_⟩
            exact closing_of_mem_span inOrder isOpen isClosing ordered openingPresent otherOpening
              fitting member inSpan
        · exact ⟨span, List.mem_append_left _ member, .inr ⟨same, ends⟩⟩

end Trace

end Covenant

/-!
## What a pass does to layers

A pass takes the blocks of height one out.  The strays inside such a block move out of it or are
dropped with it, all other strays stay where they are, and so do the tags that are never closed.
-/

namespace Covenant

/-- A block is exchanged for parts that hold all of its tags or none of them. -/
def KeepsTags (exchange : Exchange) (keeps : Tag → Bool) : Prop :=
  ∀ opening content,
    tagsIn (exchange opening content) = if keeps opening then tagsIn content else []

variable {exchange : Exchange} {keeps : Tag → Bool} {around path : List Tag} {tag : Tag}
  {pair : Tag × Tag}

namespace Nest

def spans (nest : Nest) : List Span := nest.segments.filterMap Segment.span?

variable {nest : Nest}

@[simp]
theorem spans_leaf (content : List Part) (rest : Nest) : (leaf content rest).spans = rest.spans := by
  simp [spans, segments]

theorem mem_spans_block {opening closing : Tag} {inner rest : Nest} {span : Span} :
    span ∈ (block opening inner closing rest).spans ↔
      (inner.height = 0 ∧ span = ⟨opening, inner.parts, closing⟩) ∨
        (inner.height ≠ 0 ∧ span ∈ inner.spans) ∨ span ∈ rest.spans := by
  by_cases flat : inner.height = 0
  · simp [spans, segments, flat]
  · simp [spans, segments, flat, List.filterMap_cons]

theorem strays_of_flat (flat : nest.height = 0) (around : List Tag) :
    nest.strays around = (tagsIn nest.parts).map (·, around) := by
  induction nest with
  | nil => rfl
  | leaf content rest ih => simp [strays, parts, ih (by simpa [height] using flat)]
  | block opening inner closing rest => simp [height] at flat

theorem pairs_of_flat (flat : nest.height = 0) : nest.pairs = [] := by
  induction nest with
  | nil => rfl
  | leaf content rest ih => exact ih (by simpa [height] using flat)
  | block opening inner closing rest => simp [height] at flat

theorem shaped_reduced (shrinks : Shrinks exchange) (shaped : nest.Shaped) :
    (nest.reduced exchange).Shaped := by
  induction nest with
  | nil => trivial
  | leaf content rest ih => exact ⟨shaped.1, ih shaped.2⟩
  | block opening inner closing rest innerIH restIH =>
      obtain ⟨isOpen, isClosing, fits, shapedInner, shapedRest⟩ := shaped
      by_cases flat : inner.height = 0
      · rw [reduced, if_pos flat]
        refine ⟨?_, restIH shapedRest⟩
        intro tag member
        have inside := (tagsIn_sublist (shrinks opening inner.parts)).subset member
        by_contra opens
        obtain ⟨other, -, pair⟩ := balanced shapedInner tag inside (by simpa using opens)
        simp [pairs_of_flat flat] at pair
      · rw [reduced, if_neg flat]
        exact ⟨isOpen, isClosing, fits, innerIH shapedInner, restIH shapedRest⟩

/-- Every block is taken out by the pass or is still there. -/
theorem mem_pairs_iff (exchange : Exchange) :
    pair ∈ nest.pairs ↔
      (∃ span ∈ nest.spans, span.ends = pair) ∨ pair ∈ (nest.reduced exchange).pairs := by
  induction nest with
  | nil => simp [pairs, spans, segments, reduced]
  | leaf content rest ih => simpa [pairs, reduced] using ih
  | block opening inner closing rest innerIH restIH =>
      have restPairs : pair ∈ rest.pairs ↔ (∃ span ∈ rest.spans, span.ends = pair) ∨
          pair ∈ (rest.reduced exchange).pairs := restIH
      by_cases flat : inner.height = 0
      · have noPairs : inner.pairs = [] := pairs_of_flat flat
        rw [reduced, if_pos flat]
        simp only [pairs, noPairs, List.nil_append, List.mem_cons, restPairs]
        constructor
        · rintro (rfl | ⟨span, member, ends⟩ | later)
          · exact .inl ⟨_, mem_spans_block.mpr (.inl ⟨flat, rfl⟩), rfl⟩
          · exact .inl ⟨span, mem_spans_block.mpr (.inr (.inr member)), ends⟩
          · exact .inr later
        · rintro (⟨span, member, rfl⟩ | later)
          · rcases mem_spans_block.mp member with ⟨-, rfl⟩ | ⟨deep, -⟩ | inRest
            · exact .inl rfl
            · exact absurd flat deep
            · exact .inr (.inl ⟨span, inRest, rfl⟩)
          · exact .inr (.inr later)
      · rw [reduced, if_neg flat]
        simp only [pairs, List.mem_append, List.mem_cons, innerIH, restPairs]
        constructor
        · rintro ((⟨span, member, ends⟩ | inside) | rfl | ⟨span, member, ends⟩ | later)
          · exact .inl ⟨span, mem_spans_block.mpr (.inr (.inl ⟨flat, member⟩)), ends⟩
          · exact .inr (.inl inside)
          · exact .inr (.inr (.inl rfl))
          · exact .inl ⟨span, mem_spans_block.mpr (.inr (.inr member)), ends⟩
          · exact .inr (.inr (.inr later))
        · rintro (⟨span, member, rfl⟩ | inside | rfl | later)
          · rcases mem_spans_block.mp member with ⟨isFlat, -⟩ | ⟨-, inInner⟩ | inRest
            · exact absurd isFlat flat
            · exact .inl (.inl ⟨span, inInner, rfl⟩)
            · exact .inr (.inr (.inl ⟨span, inRest, rfl⟩))
          · exact .inl (.inr inside)
          · exact .inr (.inl rfl)
          · exact .inr (.inr (.inr later))

/-- A stray after a pass was a stray before it, there or in a block that was taken out. -/
theorem stray_of_reduced (keepsTags : KeepsTags exchange keeps)
    (stray : (tag, path) ∈ (nest.reduced exchange).strays around) :
    (tag, path) ∈ nest.strays around ∨ ∃ span ∈ nest.spans, keeps span.opening = true ∧
      (tag, span.opening :: path) ∈ nest.strays around := by
  induction nest generalizing around with
  | nil => simp [reduced, strays] at stray
  | leaf content rest ih =>
      rcases List.mem_append.mp stray with own | later
      · exact .inl (List.mem_append_left _ own)
      · rcases ih later with there | ⟨span, member, keptTags, inside⟩
        · exact .inl (List.mem_append_right _ there)
        · exact .inr ⟨span, by simpa using member, keptTags, List.mem_append_right _ inside⟩
  | block opening inner closing rest innerIH restIH =>
      have ofRest (later : (tag, path) ∈ (rest.reduced exchange).strays around) :
          (tag, path) ∈ (block opening inner closing rest).strays around ∨
            ∃ span ∈ (block opening inner closing rest).spans, keeps span.opening = true ∧
              (tag, span.opening :: path) ∈ (block opening inner closing rest).strays around := by
        rcases restIH later with there | ⟨span, member, keptTags, inside⟩
        · exact .inl (List.mem_append_right _ there)
        · exact .inr ⟨span, mem_spans_block.mpr (.inr (.inr member)), keptTags,
            List.mem_append_right _ inside⟩
      by_cases flat : inner.height = 0
      · rw [reduced, if_pos flat] at stray
        rcases List.mem_append.mp stray with own | later
        · obtain ⟨_, member, same⟩ := List.mem_map.mp own
          cases same
          rw [keepsTags] at member
          split at member
          · rename_i keptTags
            refine .inr ⟨_, mem_spans_block.mpr (.inl ⟨flat, rfl⟩), keptTags, ?_⟩
            refine List.mem_append_left _ ?_
            rw [strays_of_flat flat]
            exact List.mem_map.mpr ⟨tag, member, rfl⟩
          · simp at member
        · exact ofRest later
      · rw [reduced, if_neg flat] at stray
        rcases List.mem_append.mp stray with inside | later
        · rcases innerIH inside with there | ⟨span, member, keptTags, deeper⟩
          · exact .inl (List.mem_append_left _ there)
          · exact .inr ⟨span, mem_spans_block.mpr (.inr (.inl ⟨flat, member⟩)), keptTags,
              List.mem_append_left _ deeper⟩
        · exact ofRest later

/-- A stray outside of the blocks that a pass takes out stays where it is. -/
theorem stray_reduced (keepsTags : KeepsTags exchange keeps)
    (stray : (tag, path) ∈ nest.strays around) :
    (tag, path) ∈ (nest.reduced exchange).strays around ∨
      ∃ span ∈ nest.spans, ∃ outer, path = span.opening :: outer ∧ tag ∈ tagsIn span.content ∧
        (keeps span.opening = true → (tag, outer) ∈ (nest.reduced exchange).strays around) := by
  induction nest generalizing around with
  | nil => simp [strays] at stray
  | leaf content rest ih =>
      rcases List.mem_append.mp stray with own | later
      · exact .inl (List.mem_append_left _ own)
      · rcases ih later with stays | ⟨span, member, outer, isPath, inside, moves⟩
        · exact .inl (List.mem_append_right _ stays)
        · exact .inr ⟨span, by simpa using member, outer, isPath, inside,
            fun keptTags => List.mem_append_right _ (moves keptTags)⟩
  | block opening inner closing rest innerIH restIH =>
      rcases List.mem_append.mp stray with here | later
      · by_cases flat : inner.height = 0
        · rw [strays_of_flat flat] at here
          obtain ⟨_, member, same⟩ := List.mem_map.mp here
          cases same
          refine .inr ⟨_, mem_spans_block.mpr (.inl ⟨flat, rfl⟩), around, rfl, member, ?_⟩
          intro keptTags
          rw [reduced, if_pos flat]
          refine List.mem_append_left _ (List.mem_map.mpr ⟨tag, ?_, rfl⟩)
          rw [keepsTags, if_pos keptTags]
          exact member
        · rw [reduced, if_neg flat]
          rcases innerIH here with stays | ⟨span, member, outer, isPath, inside, moves⟩
          · exact .inl (List.mem_append_left _ stays)
          · exact .inr ⟨span, mem_spans_block.mpr (.inr (.inl ⟨flat, member⟩)), outer, isPath,
              inside, fun keptTags => List.mem_append_left _ (moves keptTags)⟩
      · have atEnd {other : Tag × List Tag} (member : other ∈ (rest.reduced exchange).strays around) :
            other ∈ ((block opening inner closing rest).reduced exchange).strays around := by
          rw [reduced]
          split
          · exact List.mem_append_right _ member
          · exact List.mem_append_right _ member
        rcases restIH later with stays | ⟨span, member, outer, isPath, inside, moves⟩
        · exact .inl (atEnd stays)
        · exact .inr ⟨span, mem_spans_block.mpr (.inr (.inr member)), outer, isPath, inside,
            fun keptTags => atEnd (moves keptTags)⟩

end Nest

namespace Layers

def spans (layers : Layers) : List Span := layers.segments.filterMap Segment.span?

variable {layers : Layers}

theorem spans_of_matched (matched : layers.Matched none) :
    Covenant.spans layers.parts = layers.spans := by
  rw [Covenant.spans, ofParts_of_matched matched, spans]

theorem spans_more (nest : Nest) (opening : Tag) (rest : Layers) :
    (more nest opening rest).spans = nest.spans ++ rest.spans := by
  simp [spans, Nest.spans, segments, List.filterMap_cons]

@[simp]
theorem unclosed_reduced (exchange : Exchange) (layers : Layers) (around : List Tag) :
    (layers.reduced exchange).unclosed around = layers.unclosed around := by
  induction layers generalizing around with
  | last nest => rfl
  | more nest opening rest ih => exact ih (opening :: around)

theorem shaped_reduced (shrinks : Shrinks exchange) (shaped : layers.Shaped) :
    (layers.reduced exchange).Shaped := by
  induction layers with
  | last nest => exact Nest.shaped_reduced shrinks shaped
  | more nest opening rest ih =>
      exact ⟨Nest.shaped_reduced shrinks shaped.1, shaped.2.1, ih shaped.2.2⟩

/-- Every block is taken out by the pass or is still there. -/
theorem mem_pairs_iff (exchange : Exchange) :
    pair ∈ layers.pairs ↔
      (∃ span ∈ layers.spans, span.ends = pair) ∨ pair ∈ (layers.reduced exchange).pairs := by
  induction layers with
  | last nest => exact Nest.mem_pairs_iff exchange
  | more nest opening rest ih =>
      have ofNest : pair ∈ nest.pairs ↔ (∃ span ∈ nest.spans, span.ends = pair) ∨
          pair ∈ (nest.reduced exchange).pairs := Nest.mem_pairs_iff exchange
      simp only [pairs, reduced, spans_more, List.mem_append, or_and_right, exists_or, ih, ofNest]
      exact or_or_or_comm

/-- A stray after a pass was a stray before it, there or in a block that was taken out. -/
theorem stray_of_reduced (keepsTags : KeepsTags exchange keeps)
    (stray : (tag, path) ∈ (layers.reduced exchange).strays around) :
    (tag, path) ∈ layers.strays around ∨ ∃ span ∈ layers.spans, keeps span.opening = true ∧
      (tag, span.opening :: path) ∈ layers.strays around := by
  induction layers generalizing around with
  | last nest => exact Nest.stray_of_reduced keepsTags stray
  | more nest opening rest ih =>
      rw [spans_more]
      rcases List.mem_append.mp stray with here | inside
      · rcases Nest.stray_of_reduced keepsTags here with there | ⟨span, member, keptTags, deeper⟩
        · exact .inl (List.mem_append_left _ there)
        · exact .inr ⟨span, List.mem_append_left _ member, keptTags, List.mem_append_left _ deeper⟩
      · rcases ih inside with there | ⟨span, member, keptTags, deeper⟩
        · exact .inl (List.mem_append_right _ there)
        · exact .inr ⟨span, List.mem_append_right _ member, keptTags,
            List.mem_append_right _ deeper⟩

/-- A stray outside of the blocks that a pass takes out stays where it is. -/
theorem stray_reduced (keepsTags : KeepsTags exchange keeps)
    (stray : (tag, path) ∈ layers.strays around) :
    (tag, path) ∈ (layers.reduced exchange).strays around ∨
      ∃ span ∈ layers.spans, ∃ outer, path = span.opening :: outer ∧ tag ∈ tagsIn span.content ∧
        (keeps span.opening = true → (tag, outer) ∈ (layers.reduced exchange).strays around) := by
  induction layers generalizing around with
  | last nest => exact Nest.stray_reduced keepsTags stray
  | more nest opening rest ih =>
      rw [spans_more]
      rcases List.mem_append.mp stray with here | inside
      · rcases Nest.stray_reduced keepsTags here with
          stays | ⟨span, member, outer, isPath, inContent, moves⟩
        · exact .inl (List.mem_append_left _ stays)
        · exact .inr ⟨span, List.mem_append_left _ member, outer, isPath, inContent,
            fun keptTags => List.mem_append_left _ (moves keptTags)⟩
      · rcases ih inside with stays | ⟨span, member, outer, isPath, inContent, moves⟩
        · exact .inl (List.mem_append_right _ stays)
        · exact .inr ⟨span, List.mem_append_right _ member, outer, isPath, inContent,
            fun keptTags => List.mem_append_right _ (moves keptTags)⟩

end Layers

end Covenant
