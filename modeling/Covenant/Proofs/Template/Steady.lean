import Covenant.Proofs.Template.LayerPass
import Covenant.Proofs.Template.Report

/-!
# Steady pairing

Each pass pairs the tags that are left anew.  When a block is kept, the strays right inside it come
to stand in the block around it, and there they may fit, or be reported as strays of another tag.
Neither happens if all open tags around a stray are written alike, up to one that is never closed,
or if the innermost one is dropped together with the stray.  Layers with this property are steady: a
pass leaves them steady, so a whole run takes out the blocks of the first text, and reports the
faults of the first text.
-/

namespace Covenant

/-- The open tags are written alike up to one that is never closed, or there are none. -/
def Uniform (unclosed : List Tag) : List Tag → Prop
  | [] => True
  | opening :: outer =>
      opening ∈ unclosed ∨
        ((∃ next ∈ outer.head?, next.source = opening.source) ∧ Uniform unclosed outer)

/-- The innermost open tag is closed, and its block is dropped. -/
def IsDropped (keeps : Tag → Bool) (unclosed path : List Tag) : Prop :=
  ∃ opening ∈ path.head?, opening ∉ unclosed ∧ keeps opening = false

deriving instance DecidableEq for Tag

instance decidableUniform (unclosed : List Tag) : DecidablePred (Uniform unclosed)
  | [] => .isTrue True.intro
  | opening :: outer =>
      have := decidableUniform unclosed outer
      inferInstanceAs (Decidable (opening ∈ unclosed ∨
        ((∃ next ∈ outer.head?, next.source = opening.source) ∧ Uniform unclosed outer)))

instance (keeps : Tag → Bool) (unclosed path : List Tag) :
    Decidable (IsDropped keeps unclosed path) :=
  inferInstanceAs (Decidable (∃ opening ∈ path.head?, opening ∉ unclosed ∧ keeps opening = false))

/-- Tags that are written alike pair alike, and their blocks are kept alike. -/
def Alike (keeps : Tag → Bool) (tags : List Tag) : Prop :=
  ∀ tag ∈ tags, ∀ other ∈ tags, tag.source = other.source →
    tag.key = other.key ∧ keeps tag = keeps other

theorem message_strayFault_cons {tag opening next : Tag} {outer : List Tag}
    (isNext : next ∈ outer.head?) (same : next.source = opening.source) :
    (strayFault (tag, outer)).message = (strayFault (tag, opening :: outer)).message := by
  obtain ⟨rest, rfl⟩ := List.head?_eq_some_iff.mp isNext
  exact congrArg (fun source : Text =>
    ("Closing tag " : Text) ++ tag.source ++ (" does not match " : Text) ++ source) same

namespace Layers

variable {exchange : Exchange} {keeps : Tag → Bool} {layers : Layers}

/-- The messages of layers are those of their strays and of the tags that are never closed. -/
theorem messages_faultsOf (matched : layers.Matched none) :
    (faultsOf layers.parts).map MarkupFault.message =
      (Pairing.faults ⟨layers.pairs, layers.strays [], layers.unclosed []⟩).map
        MarkupFault.message := by
  have paired : pairing [] (tagsIn layers.parts) =
      ⟨layers.pairs, layers.strays [], layers.unclosed []⟩ := @pairing_parts layers [] matched
  rw [Covenant.messages_faultsOf, paired]

theorem exists_fault_of_stray (matched : layers.Matched none) {stray : Tag × List Tag}
    (member : stray ∈ layers.strays []) :
    ∃ fault ∈ faultsOf layers.parts, fault.message = (strayFault stray).message := by
  have reported : (strayFault stray).message ∈
      (Pairing.faults ⟨layers.pairs, layers.strays [], layers.unclosed []⟩).map
        MarkupFault.message := by
    refine List.mem_map_of_mem ?_
    exact List.mem_append_left _ (List.mem_map_of_mem member)
  rw [← messages_faultsOf matched] at reported
  simpa using reported

theorem isStray_of_mem (matched : layers.Matched none) {stray : Tag × List Tag}
    (member : stray ∈ layers.strays []) : IsStray stray.2.head? stray.1 :=
  ((@matched_iff layers []).mp matched).2 stray member

/-- Open tags around a stray that are written alike pair alike and are kept alike. -/
theorem alike_in_path (alike : Alike keeps (tagsIn layers.parts)) {tag opening next : Tag}
    {outer : List Tag} (stray : (tag, opening :: outer) ∈ layers.strays [])
    (isNext : next ∈ outer.head?) (same : next.source = opening.source) :
    next.key = opening.key ∧ keeps next = keeps opening := by
  have inPath : next ∈ opening :: outer :=
    List.mem_cons_of_mem _ (List.mem_of_mem_head? isNext)
  exact alike next (mem_tagsIn_of_mem_path stray inPath) opening
    (mem_tagsIn_of_mem_path stray (by simp)) same

theorem not_isDropped_of_kept (alike : Alike keeps (tagsIn layers.parts)) {tag opening next : Tag}
    {outer : List Tag} (stray : (tag, opening :: outer) ∈ layers.strays [])
    (isKept : keeps opening = true) (isNext : next ∈ outer.head?)
    (same : next.source = opening.source) : ¬ IsDropped keeps (layers.unclosed []) outer := by
  rintro ⟨innermost, isInnermost, -, drops⟩
  cases (Option.mem_unique isNext isInnermost)
  rw [(alike_in_path alike stray isNext same).2, isKept] at drops
  simp at drops

/-- If there is no block, no stray stands in a block. -/
theorem uniform_of_no_pairs (noPairs : layers.pairs = []) {tag : Tag} {path : List Tag}
    (stray : (tag, path) ∈ layers.strays []) : Uniform (layers.unclosed []) path := by
  cases path with
  | nil => trivial
  | cons opening outer => exact .inl (mem_unclosed_of_no_pairs noPairs stray (by simp))

/-- What a stray of layers says about the open tags around it, and the whole is in order. -/
structure Steady (keeps : Tag → Bool) (layers : Layers) : Prop where
  matched : layers.Matched none
  inOrder : InOrder layers.parts
  alike : Alike keeps (tagsIn layers.parts)
  settles : ∀ stray ∈ layers.strays [],
    IsDropped keeps (layers.unclosed []) stray.2 ∨ Uniform (layers.unclosed []) stray.2

/-- The block of a span that a pass takes out is closed. -/
theorem ends_mem_pairs {span : Span} (member : span ∈ layers.spans) :
    (span.opening, span.closing) ∈ layers.pairs :=
  (mem_pairs_iff fun _ content => content).mpr (.inl ⟨span, member, rfl⟩)

namespace Steady

theorem stray_of_reduced (steady : Steady keeps layers) (keepsTags : KeepsTags exchange keeps)
    {tag : Tag} {path : List Tag} (stray : (tag, path) ∈ (layers.reduced exchange).strays []) :
    IsStray path.head? tag ∧
      (IsDropped keeps (layers.unclosed []) path ∨ Uniform (layers.unclosed []) path) ∧
      ∃ before, (tag, before) ∈ layers.strays [] ∧
        (strayFault (tag, path)).message = (strayFault (tag, before)).message := by
  have once := steady.inOrder.nodup
  rcases Layers.stray_of_reduced keepsTags stray with there | ⟨span, member, isKept, inside⟩
  · exact ⟨isStray_of_mem steady.matched there, steady.settles _ there, path, there, rfl⟩
  · have closed := not_mem_unclosed_of_pair once (ends_mem_pairs member)
    rcases steady.settles _ inside with ⟨opening, isInnermost, -, isDropped⟩ | uniform
    · cases isInnermost
      simp [isKept] at isDropped
    · rcases uniform with isUnclosed | ⟨⟨next, isNext, same⟩, uniform⟩
      · exact absurd isUnclosed closed
      · have isStray := isStray_of_mem steady.matched inside
        refine ⟨⟨isStray.1, ?_⟩, .inr uniform, _, inside, message_strayFault_cons isNext same⟩
        intro innermost isInnermost
        cases (Option.mem_unique isNext isInnermost)
        rw [(alike_in_path steady.alike inside isNext same).1]
        exact isStray.2 span.opening rfl

theorem pass_parts (steady : Steady keeps layers) (exchange : Exchange) :
    pass exchange layers.parts = (layers.reduced exchange).parts :=
  pass_of_matched exchange steady.matched

theorem reduced (steady : Steady keeps layers) (keepsTags : KeepsTags exchange keeps)
    (shrinks : Shrinks exchange) : Steady keeps (layers.reduced exchange) where
  matched := by
    have shaped := ((@matched_iff layers []).mp steady.matched).1
    refine (@matched_iff _ []).mpr ⟨shaped_reduced shrinks shaped, ?_⟩
    intro stray member
    exact (steady.stray_of_reduced keepsTags member).1
  inOrder := by
    rw [← steady.pass_parts]
    exact steady.inOrder.pass shrinks
  alike := by
    have fewer := (tagsIn_sublist (pass_sublist shrinks layers.parts)).subset
    rw [steady.pass_parts] at fewer
    intro tag member other otherMember
    exact steady.alike tag (fewer member) other (fewer otherMember)
  settles := by
    intro stray member
    rw [unclosed_reduced]
    exact (steady.stray_of_reduced keepsTags member).2.1

theorem known_after_pass (steady : Steady keeps layers) (keepsTags : KeepsTags exchange keeps)
    (shrinks : Shrinks exchange) :
    ∀ fault ∈ faultsOf (layers.reduced exchange).parts,
      ∃ earlier ∈ faultsOf layers.parts, earlier.message = fault.message := by
  intro fault member
  have reported : fault.message ∈ (faultsOf (layers.reduced exchange).parts).map
      MarkupFault.message := List.mem_map_of_mem member
  rw [Layers.messages_faultsOf (steady.reduced keepsTags shrinks).matched, Pairing.faults,
    List.map_append, List.mem_append, unclosed_reduced] at reported
  rcases reported with ofStray | ofUnclosed
  · obtain ⟨_, isStray, same⟩ := List.mem_map.mp ofStray
    obtain ⟨⟨tag, path⟩, stray, rfl⟩ := List.mem_map.mp isStray
    obtain ⟨-, -, before, there, sameMessage⟩ := steady.stray_of_reduced keepsTags stray
    obtain ⟨earlier, among, isMessage⟩ := exists_fault_of_stray steady.matched there
    exact ⟨earlier, among, by rw [isMessage, ← sameMessage, same]⟩
  · have there : fault.message ∈ (faultsOf layers.parts).map MarkupFault.message := by
      rw [Layers.messages_faultsOf steady.matched, Pairing.faults, List.map_append]
      exact List.mem_append_right _ ofUnclosed
    simpa using there

end Steady

end Layers

end Covenant

/-!
## Runs over layers

A run over steady layers takes out the blocks of the first text, reports the faults of the first
text, and leaves the strays or drops them with the block around them.  Conversely, a run that takes
out exactly the blocks of the first text and says one thing only about every stray began with
strays in uniform surroundings, or in surroundings that are dropped.
-/

namespace Covenant

namespace Trace

variable {exchange : Exchange} {parts : List Part} {problems : List Text} {passes : Nat}

theorem mem_problems_run {message : Text} (known : message ∈ problems) :
    message ∈ (run exchange passes problems parts).problems := by
  fun_induction run exchange passes problems parts with
  | case1 passes problems parts noted noSpans => exact mem_addProblems.mpr (.inl known)
  | case2 problems parts noted hasSpans => exact mem_addProblems.mpr (.inl known)
  | case3 problems parts noted hasSpans passes later ih => exact ih (mem_addProblems.mpr (.inl known))

/-- The faults of the text with which a run begins are reported. -/
theorem message_mem_problems_run {fault : MarkupFault} (member : fault ∈ faultsOf parts) :
    fault.message ∈ (run exchange passes problems parts).problems := by
  have noted : fault.message ∈ addProblems problems (faultsOf parts) :=
    mem_addProblems.mpr (.inr ⟨fault, member, rfl⟩)
  by_cases hasSpans : spans parts = []
  · rw [run_of_no_spans exchange problems parts passes hasSpans]
    exact noted
  · cases passes with
    | zero =>
        rw [run_zero exchange problems parts hasSpans]
        exact noted
    | succ passes =>
        rw [run_succ exchange problems parts passes hasSpans]
        exact mem_problems_run noted

end Trace

namespace Layers

open Trace

variable {exchange : Exchange} {keeps : Tag → Bool} {layers : Layers} {parts : List Part}
  {problems : List Text} {passes : Nat} {pair : Tag × Tag} {tag : Tag} {path : List Tag}

/-- Without a block of height one there is no block at all. -/
theorem pairs_eq_nil (matched : layers.Matched none) (noSpans : Covenant.spans layers.parts = []) :
    layers.pairs = [] := by
  rw [spans_of_matched matched] at noSpans
  clear matched
  induction layers with
  | last nest => exact Nest.pairs_of_flat (nest.spans_segments_eq_nil_iff.mp noSpans)
  | more nest opening rest ih =>
      rw [spans_more, List.append_eq_nil_iff] at noSpans
      have flat : nest.height = 0 := nest.spans_segments_eq_nil_iff.mp noSpans.1
      rw [pairs, Nest.pairs_of_flat flat, ih noSpans.2, List.append_nil]

namespace Steady

theorem problems_run (steady : Steady keeps layers) (keepsTags : KeepsTags exchange keeps)
    (shrinks : Shrinks exchange) (written : layers.parts = parts) :
    (run exchange passes problems parts).problems = addProblems problems (faultsOf parts) := by
  fun_induction run exchange passes problems parts generalizing layers with
  | case1 passes problems parts noted => rfl
  | case2 problems parts noted => rfl
  | case3 problems parts noted hasSpans passes later =>
      rename_i ih
      subst written
      have nothingNew : addProblems noted (faultsOf (layers.reduced exchange).parts) = noted := by
        apply addProblems_of_known
        intro fault member
        obtain ⟨earlier, among, same⟩ := steady.known_after_pass keepsTags shrinks fault member
        exact mem_addProblems.mpr (.inr ⟨earlier, among, same⟩)
      have afterwards := ih (steady.reduced keepsTags shrinks) (steady.pass_parts exchange).symm
      rw [steady.pass_parts exchange, nothingNew] at afterwards
      simpa only [later, steady.pass_parts exchange] using afterwards

theorem mem_pairs_iff_consumed (steady : Steady keeps layers) (keepsTags : KeepsTags exchange keeps)
    (shrinks : Shrinks exchange) (written : layers.parts = parts)
    (finished : (run exchange passes problems parts).finished = true) :
    pair ∈ layers.pairs ↔
      ∃ span ∈ (run exchange passes problems parts).consumed, span.ends = pair := by
  fun_induction run exchange passes problems parts generalizing layers with
  | case1 passes problems parts noted =>
      rename_i noSpans
      subst written
      simp [pairs_eq_nil steady.matched (by simpa using noSpans)]
  | case2 problems parts noted => simp at finished
  | case3 problems parts noted hasSpans passes later =>
      rename_i ih
      subst written
      have afterwards := ih (steady.reduced keepsTags shrinks) (steady.pass_parts exchange).symm
        finished
      rw [Layers.mem_pairs_iff exchange, spans_of_matched steady.matched, afterwards]
      simp only [List.mem_append, or_and_right, exists_or, later]

/-- A stray in surroundings that are dropped is dropped with the block right around it. -/
theorem dropped_of_isDropped (steady : Steady keeps layers) (keepsTags : KeepsTags exchange keeps)
    (shrinks : Shrinks exchange) (written : layers.parts = parts)
    (finished : (run exchange passes problems parts).finished = true)
    (stray : (tag, path) ∈ layers.strays []) (dropped : IsDropped keeps (layers.unclosed []) path) :
    ∃ span ∈ (run exchange passes problems parts).consumed,
      tag ∈ tagsIn span.content ∧ keeps span.opening = false := by
  fun_induction run exchange passes problems parts generalizing layers with
  | case1 passes problems parts noted =>
      rename_i noSpans
      subst written
      obtain ⟨opening, isInnermost, closed, -⟩ := dropped
      have noPairs := pairs_eq_nil steady.matched (by simpa using noSpans)
      exact absurd (mem_unclosed_of_no_pairs noPairs stray (List.mem_of_mem_head? isInnermost)) closed
  | case2 problems parts noted => simp at finished
  | case3 problems parts noted hasSpans passes later =>
      rename_i ih
      subst written
      rcases stray_reduced keepsTags stray with stays | ⟨span, member, outer, rfl, inside, -⟩
      · obtain ⟨span, taken, there⟩ := ih (steady.reduced keepsTags shrinks)
          (steady.pass_parts exchange).symm finished stays (by simpa using dropped)
        exact ⟨span, List.mem_append_right _ taken, there⟩
      · obtain ⟨opening, isInnermost, -, isDropped⟩ := dropped
        cases isInnermost
        refine ⟨span, List.mem_append_left _ ?_, inside, isDropped⟩
        rw [spans_of_matched steady.matched]
        exact member

theorem mem_left_of_uniform (steady : Steady keeps layers) (keepsTags : KeepsTags exchange keeps)
    (shrinks : Shrinks exchange) (written : layers.parts = parts)
    (stray : (tag, path) ∈ layers.strays []) (uniform : Uniform (layers.unclosed []) path)
    (notDropped : ¬ IsDropped keeps (layers.unclosed []) path) :
    tag ∈ tagsIn (run exchange passes problems parts).left := by
  fun_induction run exchange passes problems parts generalizing layers path with
  | case1 passes problems parts => exact written ▸ mem_tagsIn_of_stray stray
  | case2 problems parts => exact written ▸ mem_tagsIn_of_stray stray
  | case3 problems parts noted hasSpans passes =>
      rename_i later ih
      subst written
      have steadyNext := steady.reduced keepsTags shrinks
      rcases stray_reduced keepsTags stray with stays | ⟨span, member, outer, rfl, -, moves⟩
      · exact ih steadyNext (steady.pass_parts exchange).symm stays (by simpa using uniform)
          (by simpa using notDropped)
      · have closed := not_mem_unclosed_of_pair steady.inOrder.nodup (ends_mem_pairs member)
        have isKept : keeps span.opening = true := by
          by_contra drops
          exact notDropped ⟨span.opening, rfl, closed, by simpa using drops⟩
        rcases uniform with isUnclosed | ⟨⟨next, isNext, same⟩, uniform⟩
        · exact absurd isUnclosed closed
        · have notDroppedNext := not_isDropped_of_kept steady.alike stray isKept isNext same
          exact ih steadyNext (steady.pass_parts exchange).symm (moves isKept)
            (by simpa using uniform) (by simpa using notDroppedNext)

theorem mem_left_of_unclosed (steady : Steady keeps layers) (keepsTags : KeepsTags exchange keeps)
    (shrinks : Shrinks exchange) (written : layers.parts = parts)
    (isUnclosed : tag ∈ layers.unclosed []) :
    tag ∈ tagsIn (run exchange passes problems parts).left := by
  fun_induction run exchange passes problems parts generalizing layers with
  | case1 passes problems parts noted =>
      rename_i noSpans
      subst written
      exact mem_tagsIn_of_unclosed isUnclosed
  | case2 problems parts noted =>
      subst written
      exact mem_tagsIn_of_unclosed isUnclosed
  | case3 problems parts noted hasSpans passes later =>
      rename_i ih
      subst written
      exact ih (steady.reduced keepsTags shrinks) (steady.pass_parts exchange).symm
        (by simpa using isUnclosed)

end Steady

/-! ## From the run back to the text -/

/-- If a run takes out the blocks of the text, then it does so after a pass. -/
theorem mem_pairs_reduced_iff_consumed (shrinks : Shrinks exchange) (matched : layers.Matched none)
    (inOrder : InOrder layers.parts) {later : Trace}
    (isLater : later = run exchange passes problems (pass exchange layers.parts))
    (consumed : ∀ pair, pair ∈ layers.pairs ↔
      ∃ span ∈ Covenant.spans layers.parts ++ later.consumed, span.ends = pair) (pair : Tag × Tag) :
    pair ∈ (layers.reduced exchange).pairs ↔ ∃ span ∈ later.consumed, span.ends = pair := by
  have next : pass exchange layers.parts = (layers.reduced exchange).parts :=
    pass_of_matched exchange matched
  constructor
  · intro stays
    obtain ⟨span, member, rfl⟩ := (consumed pair).mp ((mem_pairs_iff exchange).mpr (.inr stays))
    have present : span.opening ∈ tagsIn (pass exchange layers.parts) := by
      rw [next, mem_tagsIn_iff]
      exact .inl ⟨_, stays, rfl⟩
    exact ⟨span, mem_later_of_present shrinks inOrder member present, rfl⟩
  · rintro ⟨span, member, rfl⟩
    have isPair := (consumed span.ends).mpr ⟨span, List.mem_append_right _ member, rfl⟩
    rcases (mem_pairs_iff exchange).mp isPair with ⟨now, isNow, same⟩ | stays
    · exfalso
      rw [isLater] at member
      have present := (ends_present shrinks member).1
      rw [← spans_of_matched matched] at isNow
      have gone := (ends_not_mem_pass shrinks inOrder isNow).1
      have sameOpening : now.opening = span.opening := congrArg Prod.fst same
      rw [sameOpening] at gone
      exact gone present
    · exact stays

/-- If a run takes out the blocks of the text only, then no stray fits the open tag around it, since
the two would be taken out in the end. -/
theorem not_fits_of_consumed (shrinks : Shrinks exchange) (shaped : layers.Shaped)
    (inOrder : InOrder layers.parts)
    (finished : (run exchange passes problems layers.parts).finished = true)
    (consumed : ∀ pair, pair ∈ layers.pairs ↔
      ∃ span ∈ (run exchange passes problems layers.parts).consumed, span.ends = pair)
    (stray : (tag, path) ∈ layers.strays []) (isClosing : tag.isOpen = false) {opening : Tag}
    (isInnermost : opening ∈ path.head?) : opening.key ≠ tag.key := by
  intro fits
  rcases exists_between shaped stray with ⟨rfl, -⟩ |
    ⟨innermost, outer, before, between, after, rfl, isOpen, split, balanced, role⟩
  · simp at isInnermost
  · cases isInnermost
    have fromTag : tagsIn layers.parts = (before ++ opening :: between) ++ tag :: after := by
      simpa using split
    have closed : ClosedBetween layers.parts (run exchange passes problems layers.parts).consumed
        opening tag := by
      intro other present opens afterOpening beforeTag
      have isBetween := inOrder.mem_between split present afterOpening beforeTag
      obtain ⟨closing, closingBetween, pair⟩ := balanced other isBetween opens
      obtain ⟨span, taken, ends⟩ := (consumed _).mp pair
      cases ends
      exact ⟨span, taken, rfl, inOrder.lt_start fromTag (by simp [closingBetween])⟩
    obtain ⟨span, taken, ends⟩ := exists_consumed_of_fitting shrinks inOrder finished
      (show opening ∈ _ by simp [split]) (show tag ∈ _ by simp [split]) isOpen isClosing fits
      (inOrder.start_lt split (by simp)) closed
    have isPair : (span.opening, span.closing) ∈ layers.pairs :=
      (consumed span.ends).mpr ⟨span, taken, rfl⟩
    rcases ends with rfl | ⟨rfl, early⟩
    · exact not_stray_of_pair inOrder.nodup isPair stray
    · rcases role with isUnclosed | ⟨closing, isAfter, pair⟩
      · exact not_mem_unclosed_of_pair inOrder.nodup isPair isUnclosed
      · have same := closing_unique inOrder.nodup pair isPair
        have late := inOrder.start_lt fromTag isAfter
        rw [same] at late
        omega

/-- If a run takes out the blocks of the text only, then the layers are matched after a pass. -/
theorem matched_reduced_of_consumed (keepsTags : KeepsTags exchange keeps)
    (shrinks : Shrinks exchange) (matched : layers.Matched none) (inOrder : InOrder layers.parts)
    (finished : (run exchange passes problems (pass exchange layers.parts)).finished = true)
    (consumed : ∀ pair, pair ∈ (layers.reduced exchange).pairs ↔
      ∃ span ∈ (run exchange passes problems (pass exchange layers.parts)).consumed,
        span.ends = pair) :
    (layers.reduced exchange).Matched none := by
  have inOrderNext := inOrder.pass shrinks
  have shaped := shaped_reduced shrinks ((@matched_iff layers []).mp matched).1
  rw [pass_of_matched exchange matched] at inOrderNext finished consumed
  refine (@matched_iff _ []).mpr ⟨shaped, ?_⟩
  rintro ⟨tag, path⟩ stray
  have isClosing : tag.isOpen = false := by
    rcases stray_of_reduced keepsTags stray with there | ⟨span, -, -, inside⟩
    · exact (isStray_of_mem matched there).1
    · exact (isStray_of_mem matched inside).1
  refine ⟨isClosing, ?_⟩
  intro opening isInnermost
  exact not_fits_of_consumed shrinks shaped inOrderNext finished consumed stray isClosing isInnermost

/-- No two messages name different innermost open tags for one stray. -/
def NamesOne (tags : List Tag) (messages : List Text) : Prop :=
  ∀ tag ∈ tags, ∀ path other : List Tag, (strayFault (tag, path)).message ∈ messages →
    (strayFault (tag, other)).message ∈ messages →
      path.head?.map (·.source) = other.head?.map (·.source)

/-- A stray that stands in one place first and in another later is reported in both. -/
theorem same_source_of_namesOne {later : Layers} {messages : List Text}
    (namesOne : NamesOne (tagsIn layers.parts) messages) (matched : layers.Matched none)
    (matchedLater : later.Matched none)
    (known : ∀ fault ∈ faultsOf layers.parts, fault.message ∈ messages)
    (knownLater : ∀ fault ∈ faultsOf later.parts, fault.message ∈ messages) {other : List Tag}
    (stray : (tag, path) ∈ layers.strays []) (there : (tag, other) ∈ later.strays []) :
    other.head?.map (·.source) = path.head?.map (·.source) := by
  obtain ⟨fault, among, isMessage⟩ := exists_fault_of_stray matched stray
  obtain ⟨faultLater, amongLater, isMessageLater⟩ := exists_fault_of_stray matchedLater there
  apply namesOne tag (mem_tagsIn_of_stray stray) other path
  · rw [← isMessageLater]
    exact knownLater faultLater amongLater
  · rw [← isMessage]
    exact known fault among

/-- If a run takes out the blocks of the text and names one open tag only for every stray, then the
strays stand in uniform surroundings and are left, or their surroundings are dropped. -/
theorem uniform_of_consumed (keepsTags : KeepsTags exchange keeps) (shrinks : Shrinks exchange)
    (matched : layers.Matched none) (inOrder : InOrder layers.parts)
    (alike : Alike keeps (tagsIn layers.parts)) (written : layers.parts = parts)
    (finished : (run exchange passes problems parts).finished = true)
    (consumed : ∀ pair, pair ∈ layers.pairs ↔
      ∃ span ∈ (run exchange passes problems parts).consumed, span.ends = pair)
    (namesOne : NamesOne (tagsIn layers.parts) (run exchange passes problems parts).problems)
    (stray : (tag, path) ∈ layers.strays []) :
    IsDropped keeps (layers.unclosed []) path ∨
      (Uniform (layers.unclosed []) path ∧
        tag ∈ tagsIn (run exchange passes problems parts).left) := by
  fun_induction run exchange passes problems parts generalizing layers path with
  | case1 passes problems parts =>
      rename_i noSpans
      subst written
      have noPairs := pairs_eq_nil matched (by simpa using noSpans)
      exact .inr ⟨uniform_of_no_pairs noPairs stray, mem_tagsIn_of_stray stray⟩
  | case2 problems parts => simp at finished
  | case3 problems parts noted hasSpans passes =>
      rename_i later ih
      subst written
      have next : pass exchange layers.parts = (layers.reduced exchange).parts :=
        pass_of_matched exchange matched
      have consumedNext := mem_pairs_reduced_iff_consumed shrinks matched inOrder
        (show later = run exchange passes noted (pass exchange layers.parts) from rfl) consumed
      have matchedNext := matched_reduced_of_consumed keepsTags shrinks matched inOrder finished
        consumedNext
      have inOrderNext := inOrder.pass shrinks
      have fewer := (tagsIn_sublist (pass_sublist shrinks layers.parts)).subset
      rw [next] at fewer inOrderNext
      have afterPass {around : List Tag}
          (there : (tag, around) ∈ (layers.reduced exchange).strays []) :
          IsDropped keeps (layers.unclosed []) around ∨
            (Uniform (layers.unclosed []) around ∧ tag ∈ tagsIn later.left) := by
        have outcome := ih matchedNext inOrderNext
          (fun one oneThere other otherThere => alike one (fewer oneThere) other (fewer otherThere))
          next.symm finished consumedNext (fun one oneThere => namesOne one (fewer oneThere)) there
        simpa using outcome
      rcases stray_reduced keepsTags stray with stays | ⟨span, member, outer, rfl, -, moves⟩
      · exact afterPass stays
      · by_cases isKept : keeps span.opening = true
        · have there := moves isKept
          have sameSource := same_source_of_namesOne namesOne matched matchedNext
            (fun fault among => mem_problems_run (mem_addProblems.mpr (.inr ⟨fault, among, rfl⟩)))
            (fun fault among => message_mem_problems_run (next ▸ among)) stray there
          obtain ⟨around, isAround, same⟩ := Option.map_eq_some_iff.mp sameSource
          have notDropped := not_isDropped_of_kept alike stray isKept isAround same
          obtain ⟨uniform, isLeft⟩ := (afterPass there).resolve_left notDropped
          exact .inr ⟨.inr ⟨⟨around, isAround, same⟩, uniform⟩, isLeft⟩
        · have closed := not_mem_unclosed_of_pair inOrder.nodup (ends_mem_pairs member)
          exact .inl ⟨span.opening, rfl, closed, by simpa using isKept⟩

end Layers

end Covenant
