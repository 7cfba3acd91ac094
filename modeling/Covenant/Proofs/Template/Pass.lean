import Covenant.Proofs.Template.Trace
import Mathlib.Data.List.Pairwise

/-!
# One pass, tag by tag

The tags of a text are ordered by their places, and as long as the parts of a block are exchanged
for some of its own, the tags that are left stay in that order.  What a pass takes out between two
places can then be said by comparing places, without cutting the parts into pieces again.
-/

namespace Covenant

/-- The tags among the parts are in the order of their places. -/
def InOrder (parts : List Part) : Prop :=
  (tagsIn parts).Pairwise fun first second => first.start < second.start

/-- Blocks are exchanged for some of their own parts. -/
def Shrinks (exchange : Exchange) : Prop :=
  ∀ opening content, (exchange opening content).Sublist content

def Span.parts (span : Span) : List Part :=
  .tagged span.opening :: (span.content ++ [.tagged span.closing])

def Segment.parts : Segment → List Part
  | kept part => [part]
  | block span => span.parts

/-- The tags of an innermost block fit, and there are just other closing tags between them. -/
structure Span.IsInnermost (span : Span) : Prop where
  opens : span.opening.isOpen = true
  closes : span.closing.isOpen = false
  fits : span.opening.key = span.closing.key
  others : ∀ tag ∈ tagsIn span.content, tag.isOpen = false ∧ tag.key ≠ span.opening.key

namespace Segment

theorem flatMap_parts_keptAll (parts : List Part) :
    (keptAll parts).flatMap Segment.parts = parts := by
  simp [keptAll, List.flatMap_map, Segment.parts]

theorem flatMap_parts_ofParts (candidate : Option Candidate) (parts : List Part) :
    (ofParts candidate parts).flatMap Segment.parts = Candidate.held candidate ++ parts := by
  induction parts generalizing candidate with
  | nil => simp [ofParts, flatMap_parts_keptAll]
  | cons part parts ih =>
      cases part with
      | plain c => cases candidate <;> simp [ofParts, Segment.parts, ih]
      | tagged tag =>
          by_cases isOpen : tag.isOpen = true
          · simp [ofParts, isOpen, flatMap_parts_keptAll, ih, Candidate.parts]
          · cases candidate with
            | none => simp [ofParts, isOpen, Segment.parts, ih]
            | some candidate =>
                by_cases fits : candidate.opening.key = tag.key
                · simp [ofParts, isOpen, fits, Segment.parts, Span.parts, ih, Candidate.parts]
                · simp [ofParts, isOpen, fits, ih]

/-- An opening tag with other closing tags after it. -/
def IsOpenCandidate (candidate : Candidate) : Prop :=
  candidate.opening.isOpen = true ∧
    ∀ tag ∈ tagsIn candidate.content, tag.isOpen = false ∧ tag.key ≠ candidate.opening.key

theorem isInnermost_of_mem_ofParts (candidate : Option Candidate)
    (isOpenCandidate : ∀ opened ∈ candidate, IsOpenCandidate opened) (parts : List Part) :
    ∀ span, .block span ∈ ofParts candidate parts → span.IsInnermost := by
  induction parts generalizing candidate with
  | nil => simp [ofParts, keptAll]
  | cons part parts ih =>
      intro span member
      cases part with
      | plain c =>
          cases candidate with
          | none => exact ih none (by simp) span (by simpa [ofParts] using member)
          | some candidate =>
              have grown : IsOpenCandidate (candidate.add (.plain c)) := by
                simpa [IsOpenCandidate, Candidate.add] using isOpenCandidate candidate rfl
              exact ih (some _) (by simpa using grown) span (by simpa [ofParts] using member)
      | tagged tag =>
          by_cases isOpen : tag.isOpen = true
          · have fresh : IsOpenCandidate ⟨tag, []⟩ := ⟨isOpen, by simp⟩
            have later : .block span ∈ ofParts (some ⟨tag, []⟩) parts := by
              simpa [ofParts, isOpen, keptAll] using member
            exact ih (some _) (by simpa using fresh) span later
          · have isClosing : tag.isOpen = false := by simpa using isOpen
            cases candidate with
            | none => exact ih none (by simp) span (by simpa [ofParts, isOpen] using member)
            | some candidate =>
                obtain ⟨opens, others⟩ := isOpenCandidate candidate rfl
                by_cases fits : candidate.opening.key = tag.key
                · rcases (by simpa [ofParts, isOpen, fits] using member) with rfl | later
                  · exact ⟨opens, isClosing, fits, others⟩
                  · exact ih none (by simp) span later
                · have grown : IsOpenCandidate (candidate.add (.tagged tag)) := by
                    refine ⟨opens, ?_⟩
                    intro other inContent
                    rcases (by simpa [Candidate.add] using inContent) with inContent | rfl
                    · exact others other inContent
                    · exact ⟨isClosing, Ne.symm fits⟩
                  exact ih (some _) (by simpa using grown) span
                    (by simpa [ofParts, isOpen, fits] using member)

theorem exists_ofParts_append (candidate : Option Candidate) (before : List Part) {opening : Tag}
    (isOpen : opening.isOpen = true) (rest : List Part) :
    ∃ segments, ofParts candidate (before ++ .tagged opening :: rest) =
      segments ++ ofParts (some ⟨opening, []⟩) rest := by
  induction before generalizing candidate with
  | nil => exact ⟨keptAll (Candidate.held candidate), by cases candidate <;> simp [ofParts, isOpen]⟩
  | cons part before ih =>
      cases part with
      | plain c =>
          cases candidate with
          | none =>
              obtain ⟨segments, same⟩ := ih none
              exact ⟨.kept (.plain c) :: segments, by simp [ofParts, same]⟩
          | some candidate =>
              obtain ⟨segments, same⟩ := ih (some (candidate.add (.plain c)))
              exact ⟨segments, by simp [ofParts, same]⟩
      | tagged tag =>
          by_cases tagOpens : tag.isOpen = true
          · obtain ⟨segments, same⟩ := ih (some ⟨tag, []⟩)
            exact ⟨keptAll (Candidate.held candidate) ++ segments, by
              cases candidate <;> simp [ofParts, tagOpens, same]⟩
          · cases candidate with
            | none =>
                obtain ⟨segments, same⟩ := ih none
                exact ⟨.kept (.tagged tag) :: segments, by simp [ofParts, tagOpens, same]⟩
            | some candidate =>
                by_cases fits : candidate.opening.key = tag.key
                · obtain ⟨segments, same⟩ := ih none
                  exact ⟨.block ⟨candidate.opening, candidate.content, tag⟩ :: segments, by
                    simp [ofParts, tagOpens, fits, same]⟩
                · obtain ⟨segments, same⟩ := ih (some (candidate.add (.tagged tag)))
                  exact ⟨segments, by simp [ofParts, tagOpens, fits, same]⟩

/-- A candidate is closed by the first tag that fits if no other tag is opened before. -/
theorem exists_block_of_fitting (candidate : Candidate) {middle : List Part} {closing : Tag}
    (noOpening : ∀ tag ∈ tagsIn middle, tag.isOpen = false) (isClosing : closing.isOpen = false)
    (fits : candidate.opening.key = closing.key) (rest : List Part) :
    ∃ span, .block span ∈ ofParts (some candidate) (middle ++ .tagged closing :: rest) ∧
      span.opening = candidate.opening ∧
        (span.closing ∈ tagsIn middle ∨ span.closing = closing) := by
  induction middle generalizing candidate with
  | nil =>
      exact ⟨⟨candidate.opening, candidate.content, closing⟩, by simp [ofParts, isClosing, fits],
        rfl, .inr rfl⟩
  | cons part middle ih =>
      have more := fun grown => ih grown fun tag member => noOpening tag (by
        cases part <;> simp [member])
      cases part with
      | plain c =>
          obtain ⟨span, member, same, place⟩ := more (candidate.add (.plain c)) fits
          exact ⟨span, by simpa [ofParts] using member, same, place⟩
      | tagged tag =>
          have tagCloses : tag.isOpen = false := noOpening tag (by simp)
          by_cases tagFits : candidate.opening.key = tag.key
          · exact ⟨⟨candidate.opening, candidate.content, tag⟩,
              by simp [ofParts, tagCloses, tagFits], rfl, .inl (by simp)⟩
          · obtain ⟨span, member, same, place⟩ := more (candidate.add (.tagged tag)) fits
            refine ⟨span, by simpa [ofParts, tagCloses, tagFits] using member, same, ?_⟩
            rcases place with inMiddle | isLast
            · exact .inl (by simp [inMiddle])
            · exact .inr isLast

end Segment

theorem mem_spans_iff {parts : List Part} {span : Span} :
    span ∈ spans parts ↔ Segment.block span ∈ Segment.ofParts none parts := by
  rw [spans, List.mem_filterMap]
  constructor
  · rintro ⟨segment, member, isBlock⟩
    cases segment with
    | kept part => simp at isBlock
    | block other =>
        obtain rfl : other = span := by simpa using isBlock
        exact member
  · intro member
    exact ⟨_, member, rfl⟩

theorem isInnermost_of_mem_spans {parts : List Part} {span : Span} (member : span ∈ spans parts) :
    span.IsInnermost :=
  Segment.isInnermost_of_mem_ofParts none (by simp) parts span (mem_spans_iff.mp member)

section Order

variable {parts : List Part} {before after : List Tag} {tag other : Tag}

theorem InOrder.mem_after (inOrder : InOrder parts) (split : tagsIn parts = before ++ tag :: after)
    (member : other ∈ tagsIn parts) (later : tag.start < other.start) : other ∈ after := by
  rw [InOrder, split, List.pairwise_append] at inOrder
  rw [split] at member
  rcases List.mem_append.mp member with member | member
  · have earlier := inOrder.2.2 other member tag (by simp)
    omega
  · rcases List.mem_cons.mp member with rfl | member
    · omega
    · exact member

theorem InOrder.start_lt (inOrder : InOrder parts) (split : tagsIn parts = before ++ tag :: after)
    (member : other ∈ after) : tag.start < other.start := by
  rw [InOrder, split, List.pairwise_append] at inOrder
  exact (List.pairwise_cons.mp inOrder.2.1).1 other member

theorem InOrder.lt_start (inOrder : InOrder parts) (split : tagsIn parts = before ++ tag :: after)
    (member : other ∈ before) : other.start < tag.start := by
  rw [InOrder, split, List.pairwise_append] at inOrder
  exact inOrder.2.2 other member tag (by simp)

theorem InOrder.mem_between (inOrder : InOrder parts) {first last : Tag} {between : List Tag}
    (split : tagsIn parts = before ++ first :: (between ++ last :: after))
    (member : tag ∈ tagsIn parts) (afterFirst : first.start < tag.start)
    (beforeLast : tag.start < last.start) : tag ∈ between := by
  have fromLast : tagsIn parts = (before ++ first :: between) ++ last :: after := by
    simpa using split
  rcases List.mem_append.mp (inOrder.mem_after split member afterFirst) with inside | outside
  · exact inside
  · rcases List.mem_cons.mp outside with rfl | outside
    · omega
    · have later := inOrder.start_lt fromLast outside
      omega

theorem InOrder.eq_of_start_eq (inOrder : InOrder parts) (present : tag ∈ tagsIn parts)
    (otherPresent : other ∈ tagsIn parts) (same : tag.start = other.start) : tag = other := by
  obtain ⟨before, after, split⟩ := List.append_of_mem present
  rw [InOrder, split, List.pairwise_append] at inOrder
  rw [split] at otherPresent
  rcases List.mem_append.mp otherPresent with member | member
  · have earlier := inOrder.2.2 other member tag (by simp)
    omega
  · rcases List.mem_cons.mp member with rfl | member
    · rfl
    · have later := (List.pairwise_cons.mp inOrder.2.1).1 other member
      omega

theorem InOrder.nodup (inOrder : InOrder parts) : (tagsIn parts).Nodup := by
  apply inOrder.imp
  rintro first second earlier rfl
  omega

end Order

/-! ## What a pass takes out -/

section Removal

variable {exchange : Exchange} {parts : List Part} {span : Span} {tag : Tag}

theorem Segment.exchanged_sublist (shrinks : Shrinks exchange) (segment : Segment) :
    (segment.exchanged exchange).Sublist segment.parts := by
  cases segment with
  | kept part => exact List.Sublist.refl _
  | block span =>
      have inside := (shrinks span.opening span.content).trans
        (List.sublist_append_left span.content [.tagged span.closing])
      exact inside.cons _

theorem Segment.flatMap_exchanged_sublist (shrinks : Shrinks exchange) (segments : List Segment) :
    (segments.flatMap (exchanged exchange)).Sublist (segments.flatMap Segment.parts) := by
  induction segments with
  | nil => exact List.Sublist.refl _
  | cons segment segments ih => exact (segment.exchanged_sublist shrinks).append ih

theorem pass_sublist (shrinks : Shrinks exchange) (parts : List Part) :
    (pass exchange parts).Sublist parts := by
  have whole := Segment.flatMap_parts_ofParts none parts
  have smaller := Segment.flatMap_exchanged_sublist shrinks (Segment.ofParts none parts)
  rwa [whole] at smaller

theorem tagsIn_sublist {first second : List Part} (sublist : first.Sublist second) :
    (tagsIn first).Sublist (tagsIn second) :=
  sublist.filterMap _

theorem InOrder.pass (shrinks : Shrinks exchange) (inOrder : InOrder parts) :
    InOrder (pass exchange parts) :=
  List.Pairwise.sublist (tagsIn_sublist (pass_sublist shrinks parts)) inOrder

theorem exists_split_of_mem_spans (shrinks : Shrinks exchange) (member : span ∈ spans parts) :
    ∃ before after before' after', tagsIn parts = before ++ (tagsIn span.parts ++ after) ∧
      tagsIn (pass exchange parts) =
        before' ++ (tagsIn (exchange span.opening span.content) ++ after') ∧
      before'.Sublist before ∧ after'.Sublist after := by
  obtain ⟨first, second, split⟩ := List.append_of_mem (mem_spans_iff.mp member)
  have whole := Segment.flatMap_parts_ofParts none parts
  rw [split] at whole
  refine ⟨tagsIn (first.flatMap Segment.parts), tagsIn (second.flatMap Segment.parts),
    tagsIn (first.flatMap (Segment.exchanged exchange)),
    tagsIn (second.flatMap (Segment.exchanged exchange)), ?_, ?_,
    tagsIn_sublist (Segment.flatMap_exchanged_sublist shrinks first),
    tagsIn_sublist (Segment.flatMap_exchanged_sublist shrinks second)⟩
  · have tagsOfWhole := congrArg tagsIn whole
    simpa [Segment.parts] using tagsOfWhole.symm
  · simp [Covenant.pass, split, Segment.exchanged]

/-- What a block is not exchanged for is gone after a pass, because every tag stands once among
parts that are in order. -/
theorem not_mem_pass (shrinks : Shrinks exchange) (inOrder : InOrder parts)
    (member : span ∈ spans parts) (inSpan : tag ∈ tagsIn span.parts)
    (dropped : tag ∉ tagsIn (exchange span.opening span.content)) :
    tag ∉ tagsIn (pass exchange parts) := by
  obtain ⟨before, after, before', after', split, later, sublistBefore, sublistAfter⟩ :=
    exists_split_of_mem_spans shrinks member
  have once := inOrder.nodup
  rw [split, List.nodup_append] at once
  obtain ⟨-, onceAfter, apart⟩ := once
  rw [later]
  intro stillThere
  rcases List.mem_append.mp stillThere with there | there
  · exact apart tag (sublistBefore.subset there) tag (by simp [inSpan]) rfl
  · rcases List.mem_append.mp there with there | there
    · exact dropped there
    · exact (List.nodup_append.mp onceAfter).2.2 tag inSpan tag (sublistAfter.subset there) rfl

theorem span_parts_sublist (member : span ∈ spans parts) : span.parts.Sublist parts := by
  have whole := Segment.flatMap_parts_ofParts none parts
  rw [Candidate.held_none, List.nil_append] at whole
  have among : span.parts ∈ (Segment.ofParts none parts).map Segment.parts :=
    List.mem_map.mpr ⟨_, mem_spans_iff.mp member, rfl⟩
  rw [← whole, List.flatMap_def]
  exact List.sublist_flatten_of_mem among

theorem tagsIn_span_sublist (member : span ∈ spans parts) :
    (tagsIn span.parts).Sublist (tagsIn parts) :=
  tagsIn_sublist (span_parts_sublist member)

theorem ends_not_mem_content (inOrder : InOrder parts) (member : span ∈ spans parts) :
    span.opening ∉ tagsIn span.content ∧ span.closing ∉ tagsIn span.content := by
  have once := inOrder.nodup.sublist (tagsIn_span_sublist member)
  simp only [Span.parts, tagsIn_tagged_cons, tagsIn_append, tagsIn_nil, List.nodup_cons,
    List.mem_append, not_or] at once
  refine ⟨once.1.1, ?_⟩
  intro inside
  exact (List.nodup_append.mp once.2).2.2 _ inside span.closing (by simp) rfl

theorem ends_not_mem_pass (shrinks : Shrinks exchange) (inOrder : InOrder parts)
    (member : span ∈ spans parts) :
    span.opening ∉ tagsIn (pass exchange parts) ∧ span.closing ∉ tagsIn (pass exchange parts) := by
  have inside := (tagsIn_sublist (shrinks span.opening span.content)).subset
  obtain ⟨openingOutside, closingOutside⟩ := ends_not_mem_content inOrder member
  exact ⟨not_mem_pass shrinks inOrder member (by simp [Span.parts])
      fun there => openingOutside (inside there),
    not_mem_pass shrinks inOrder member (by simp [Span.parts])
      fun there => closingOutside (inside there)⟩

/-- A tag that is gone after a pass belonged to a block. -/
theorem mem_pass_or_mem_span (exchange : Exchange) (member : tag ∈ tagsIn parts) :
    tag ∈ tagsIn (pass exchange parts) ∨ ∃ span ∈ spans parts, tag ∈ tagsIn span.parts := by
  have whole := Segment.flatMap_parts_ofParts none parts
  rw [Candidate.held_none, List.nil_append] at whole
  rw [← whole, mem_tagsIn, List.mem_flatMap] at member
  obtain ⟨segment, among, inSegment⟩ := member
  cases segment with
  | kept part =>
      left
      rw [mem_tagsIn, pass, List.mem_flatMap]
      exact ⟨_, among, inSegment⟩
  | block span => exact .inr ⟨span, mem_spans_iff.mpr among, mem_tagsIn.mpr inSegment⟩

theorem mem_content_of_between (inOrder : InOrder parts) (member : span ∈ spans parts)
    (present : tag ∈ tagsIn parts) (afterOpening : span.opening.start < tag.start)
    (beforeClosing : tag.start < span.closing.start) : tag ∈ tagsIn span.content := by
  obtain ⟨before, after, _, _, split, -⟩ := exists_split_of_mem_spans
    (show Shrinks fun _ content => content from fun _ content => List.Sublist.refl content) member
  have fromOpening : tagsIn parts =
      before ++ span.opening :: (tagsIn span.content ++ span.closing :: after) := by
    simpa [Span.parts] using split
  exact inOrder.mem_between fromOpening present afterOpening beforeClosing

theorem eq_or_mem_content (inSpan : tag ∈ tagsIn span.parts) :
    tag = span.opening ∨ tag ∈ tagsIn span.content ∨ tag = span.closing := by
  simpa [Span.parts] using inSpan

theorem start_lt_of_mem_content (inOrder : InOrder parts) (member : span ∈ spans parts)
    (inside : tag ∈ tagsIn span.content) :
    span.opening.start < tag.start ∧ tag.start < span.closing.start := by
  have ordered := List.Pairwise.sublist (tagsIn_span_sublist member) inOrder
  simp only [Span.parts, tagsIn_tagged_cons, tagsIn_append, tagsIn_nil, List.pairwise_cons,
    List.pairwise_append] at ordered
  exact ⟨ordered.1 tag (by simp [inside]), ordered.2.2.2 tag inside span.closing (by simp)⟩

/-- An opening tag that stays open up to some place survives a pass, unless it is closed before. -/
theorem opening_mem_pass (exchange : Exchange) (inOrder : InOrder parts) {opening inner : Tag}
    {place : Nat} (present : opening ∈ tagsIn parts) (isOpen : opening.isOpen = true)
    (innerPresent : inner ∈ tagsIn parts) (innerIsOpen : inner.isOpen = true)
    (afterOpening : opening.start < inner.start) (beforePlace : inner.start < place) :
    opening ∈ tagsIn (pass exchange parts) ∨
      ∃ span ∈ spans parts, span.opening = opening ∧ span.closing.start ≤ place := by
  rcases mem_pass_or_mem_span exchange present with stays | ⟨span, member, inSpan⟩
  · exact .inl stays
  · have isInnermost := isInnermost_of_mem_spans member
    right
    refine ⟨span, member, ?_⟩
    rcases eq_or_mem_content inSpan with rfl | inContent | rfl
    · refine ⟨rfl, ?_⟩
      by_contra reachesFurther
      have inContent := mem_content_of_between inOrder member innerPresent afterOpening (by omega)
      have innerCloses := (isInnermost.others inner inContent).1
      simp [innerIsOpen] at innerCloses
    · have closes := (isInnermost.others opening inContent).1
      simp [isOpen] at closes
    · have closes := isInnermost.closes
      simp [isOpen] at closes

/-- If all tags opened between an opening tag and a closing tag are closed before it, the closing
tag is in no block but one that it ends or that the opening tag begins. -/
theorem closing_of_mem_span (inOrder : InOrder parts) {opening closing : Tag}
    (isOpen : opening.isOpen = true) (isClosing : closing.isOpen = false)
    (ordered : opening.start < closing.start) (openingPresent : opening ∈ tagsIn parts)
    (beginsOther : span.opening ≠ opening)
    (closedBetween : ∀ tag ∈ tagsIn parts, tag.isOpen = true → opening.start < tag.start →
      tag.start < closing.start → ∃ other ∈ tagsIn parts, tag.key = other.key ∧
        tag.start < other.start ∧ other.start < closing.start)
    (member : span ∈ spans parts) (inSpan : closing ∈ tagsIn span.parts) :
    span.closing = closing := by
  have isInnermost := isInnermost_of_mem_spans member
  have spanPresent := (tagsIn_span_sublist member).subset
    (show span.opening ∈ tagsIn span.parts by simp [Span.parts])
  rcases eq_or_mem_content inSpan with rfl | inContent | rfl
  · have opens := isInnermost.opens
    simp [isClosing] at opens
  · exfalso
    obtain ⟨afterOpening, beforeClosing⟩ := start_lt_of_mem_content inOrder member inContent
    rcases Nat.lt_trichotomy opening.start span.opening.start with later | same | earlier
    · obtain ⟨other, present, fits, ordered, ends⟩ :=
        closedBetween span.opening spanPresent isInnermost.opens later afterOpening
      have inside := mem_content_of_between inOrder member present ordered (by omega)
      exact (isInnermost.others other inside).2 fits.symm
    · exact beginsOther (inOrder.eq_of_start_eq spanPresent openingPresent same.symm)
    · have inside := mem_content_of_between inOrder member openingPresent earlier (by omega)
      have closes := (isInnermost.others opening inside).1
      simp [isOpen] at closes
  · rfl

end Removal

/-- An opening tag with no other one before a tag that fits opens a block that ends there at the
latest. -/
theorem exists_span_of_fitting {parts : List Part} {opening closing : Tag} (inOrder : InOrder parts)
    (openingPresent : opening ∈ tagsIn parts) (closingPresent : closing ∈ tagsIn parts)
    (isOpen : opening.isOpen = true) (isClosing : closing.isOpen = false)
    (fits : opening.key = closing.key) (ordered : opening.start < closing.start)
    (noOpening : ∀ tag ∈ tagsIn parts, opening.start < tag.start → tag.start < closing.start →
      tag.isOpen = false) :
    ∃ span ∈ spans parts, span.opening = opening ∧ span.closing.start ≤ closing.start := by
  obtain ⟨before, rest, whole⟩ := List.append_of_mem (mem_tagsIn.mp openingPresent)
  have fromOpening : tagsIn parts = tagsIn before ++ opening :: tagsIn rest := by
    simp [whole]
  have inRest := inOrder.mem_after fromOpening closingPresent ordered
  obtain ⟨middle, after, restIs⟩ := List.append_of_mem (mem_tagsIn.mp inRest)
  have fromClosing : tagsIn parts =
      (tagsIn before ++ opening :: tagsIn middle) ++ closing :: tagsIn after := by
    simp [whole, restIs]
  have upToClosing : ∀ tag ∈ tagsIn middle, opening.start < tag.start ∧
      tag.start < closing.start := by
    intro tag member
    refine ⟨inOrder.start_lt fromOpening (by simp [restIs, member]), ?_⟩
    have order := inOrder
    rw [InOrder, fromClosing, List.pairwise_append] at order
    exact order.2.2 tag (by simp [member]) closing (by simp)
  have closings : ∀ tag ∈ tagsIn middle, tag.isOpen = false := by
    intro tag member
    obtain ⟨afterOpening, beforeClosing⟩ := upToClosing tag member
    exact noOpening tag (by simp [fromClosing, member]) afterOpening beforeClosing
  obtain ⟨segments, cut⟩ := Segment.exists_ofParts_append none before isOpen rest
  obtain ⟨span, member, same, ends⟩ :=
    Segment.exists_block_of_fitting ⟨opening, []⟩ closings isClosing fits after
  refine ⟨span, ?_, same, ?_⟩
  · rw [mem_spans_iff, whole, cut, restIs]
    exact List.mem_append_right _ member
  · rcases ends with inMiddle | rfl
    · exact Nat.le_of_lt (upToClosing _ inMiddle).2
    · exact Nat.le_refl _

end Covenant
