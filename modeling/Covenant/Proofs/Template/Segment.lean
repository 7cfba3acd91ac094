import Covenant.Proofs.Template.Part
import Mathlib.Data.List.Basic

/-!
# Segments

The innermost blocks of a text can be found without a stack: an innermost block begins at an
opening tag, and ends at the first closing tag with its key unless another tag is opened before.
So one walk over the parts cuts them into spans, which are the innermost blocks, and parts that
belong to none.  The blocks that the scanner reports are exactly these spans, and exchanging
blocks by their places is the same as exchanging spans.
-/

namespace Covenant

/-- An innermost block as a row of parts. -/
structure Span where
  opening : Tag
  content : List Part
  closing : Tag

/-- A part that belongs to no innermost block, or such a block. -/
inductive Segment where
  | kept (part : Part)
  | block (span : Span)

/-- An opening tag that no other one has followed, with the parts after it. -/
structure Candidate where
  opening : Tag
  content : List Part

namespace Candidate

def add (candidate : Candidate) (part : Part) : Candidate :=
  { candidate with content := candidate.content ++ [part] }

def parts (candidate : Candidate) : List Part := .tagged candidate.opening :: candidate.content

@[simp]
theorem opening_add (candidate : Candidate) (part : Part) :
    (candidate.add part).opening = candidate.opening := rfl

@[simp]
theorem parts_add (candidate : Candidate) (part : Part) :
    (candidate.add part).parts = candidate.parts ++ [part] := rfl

/-- The parts of a candidate, if there is one. -/
def held : Option Candidate → List Part
  | none => []
  | some candidate => candidate.parts

@[simp]
theorem held_none : held none = [] := rfl

@[simp]
theorem held_some (candidate : Candidate) : held (some candidate) = candidate.parts := rfl

end Candidate

namespace Segment

/-- Parts that belong to no innermost block. -/
def keptAll (parts : List Part) : List Segment := parts.map kept

/-- The segments of parts that follow a candidate. -/
def ofParts : Option Candidate → List Part → List Segment
  | candidate, [] => keptAll (Candidate.held candidate)
  | none, .plain c :: parts => kept (.plain c) :: ofParts none parts
  | some candidate, .plain c :: parts => ofParts (some (candidate.add (.plain c))) parts
  | candidate, .tagged tag :: parts =>
      if tag.isOpen then keptAll (Candidate.held candidate) ++ ofParts (some ⟨tag, []⟩) parts
      else match candidate with
        | none => kept (.tagged tag) :: ofParts none parts
        | some candidate =>
            if candidate.opening.key = tag.key then
              block ⟨candidate.opening, candidate.content, tag⟩ :: ofParts none parts
            else ofParts (some (candidate.add (.tagged tag))) parts

def span? : Segment → Option Span
  | kept _ => none
  | block span => some span

@[simp]
theorem span?_kept (part : Part) : span? (kept part) = none := rfl

@[simp]
theorem span?_block (span : Span) : span? (block span) = some span := rfl

@[simp]
theorem filterMap_span?_keptAll (parts : List Part) : (keptAll parts).filterMap span? = [] := by
  simp [keptAll]

/-- The text of segments whose spans are exchanged for what `render` makes of them. -/
def render {m : Type → Type} [Monad m] (exchange : Text → Text → m Text) :
    List Segment → m Text
  | [] => pure []
  | kept part :: segments => do return part.source ++ (← render exchange segments)
  | block span :: segments => do
      let rendered ← exchange span.opening.argument (Part.written span.content)
      return rendered ++ (← render exchange segments)

theorem render_keptAll_append {m : Type → Type} [Monad m] [LawfulMonad m]
    (exchange : Text → Text → m Text) (parts : List Part) (segments : List Segment) :
    render exchange (keptAll parts ++ segments) =
      (Part.written parts ++ ·) <$> render exchange segments := by
  induction parts with
  | nil => simp [keptAll]
  | cons part parts ih =>
      simp only [keptAll, List.map_cons, List.cons_append, render] at ih ⊢
      rw [ih]
      simp

end Segment

/-- The innermost blocks of a row of parts. -/
def spans (parts : List Part) : List Span := (Segment.ofParts none parts).filterMap Segment.span?

/-- Open tags with the one that may begin an innermost block on top, at the place `start`; all
others have a tag opened inside. -/
def Awaits (start : Nat) : List OpenTag → Option Candidate → Prop
  | waiting, none => ∀ opened ∈ waiting, opened.hasInner = true
  | waiting, some candidate => ∃ outer, waiting = ⟨{ candidate.opening with start }, false⟩ :: outer ∧
      ∀ opened ∈ outer, opened.hasInner = true

theorem Awaits.pushOpen {start : Nat} {waiting : List OpenTag} {candidate : Option Candidate}
    (awaits : Awaits start waiting candidate) (tag : Tag) (place : Nat) :
    Awaits place (pushOpen { tag with start := place } waiting) (some ⟨tag, []⟩) := by
  cases candidate with
  | none =>
      cases waiting with
      | nil => exact ⟨[], rfl, by simp⟩
      | cons outer rest =>
          refine ⟨{ outer with hasInner := true } :: rest, rfl, ?_⟩
          intro opened member
          rcases List.mem_cons.mp member with rfl | member
          · rfl
          · exact awaits opened (by simp [member])
  | some candidate =>
      obtain ⟨outer, rfl, touched⟩ := awaits
      refine ⟨_, rfl, ?_⟩
      intro opened member
      rcases List.mem_cons.mp member with rfl | member
      · rfl
      · exact touched opened member

theorem Text.slice_middle (first middle last : Text) :
    slice first.length (first.length + middle.length) (first ++ (middle ++ last)) = middle := by
  simp [slice]

theorem Text.slice_upTo {first : Text} {start : Nat} (within : start ≤ first.length)
    (last : Text) : slice start first.length (first ++ last) = first.drop start := by
  simp [slice, List.drop_append_of_le_length within]

/-- The content of a candidate stands after its opening tag. -/
theorem Candidate.slice_content (candidate : Candidate) (before after : Text) :
    Text.slice (before.length + candidate.opening.source.length)
        (before.length + (Part.written candidate.parts).length)
        (before ++ (Part.written candidate.parts ++ after)) = Part.written candidate.content := by
  have middle := Text.slice_middle (before ++ candidate.opening.source)
    (Part.written candidate.content) after
  simpa [Candidate.parts, Part.source, Nat.add_assoc] using middle

private theorem blocks_of_no_candidate (waiting : List OpenTag) {tag : Tag}
    (isClosing : ¬ tag.isOpen = true) (touched : ∀ opened ∈ waiting, opened.hasInner = true)
    (tags : List Tag) :
    ∃ later : List OpenTag, (∀ opened ∈ later, opened.hasInner = true) ∧
      (pairTags waiting (tag :: tags)).blocks = (pairTags later tags).blocks := by
  cases waiting with
  | nil => exact ⟨[], touched, by simp [pairTags, isClosing]⟩
  | cons innermost outer =>
      have innermostTouched := touched innermost (by simp)
      by_cases fits : innermost.tag.key = tag.key
      · refine ⟨outer, fun opened member => touched opened (by simp [member]), ?_⟩
        simp [pairTags, isClosing, fits, innermostTouched]
      · refine ⟨innermost :: outer, touched, ?_⟩
        simp [pairTags, isClosing, fits]

/-- Exchanging the blocks of a scan by their places exchanges the spans.  Before the place that
the scan has reached stand the text that is settled and the parts of the candidate. -/
theorem replaceBlocksFrom_pairTags {m : Type → Type} [Monad m] [LawfulMonad m]
    (exchange : Text → Text → m Text) {text : Text} (parts : List Part) (before : Text)
    (candidate : Option Candidate) (waiting : List OpenTag) (cursor : Nat)
    (whole : text = before ++ (Part.written (Candidate.held candidate) ++ Part.written parts))
    (awaits : Awaits before.length waiting candidate) (reached : cursor ≤ before.length) :
    replaceBlocksFrom text
        (fun block => exchange block.opening.argument (block.inner text)) cursor
        (pairTags waiting (Part.placedTags
          (before.length + (Part.written (Candidate.held candidate)).length) parts)).blocks =
      (before.drop cursor ++ ·) <$> Segment.render exchange (Segment.ofParts candidate parts) := by
  induction parts generalizing before candidate waiting cursor with
  | nil =>
      have flushed := Segment.render_keptAll_append exchange (Candidate.held candidate) []
      simp only [List.append_nil] at flushed
      simp [Part.placedTags, pairTags, replaceBlocksFrom, Segment.ofParts, flushed,
        Segment.render, whole, List.drop_append_of_le_length reached]
  | cons part parts ih =>
      cases part with
      | plain c =>
          cases candidate with
          | none =>
              have step := ih (before ++ [c]) none waiting cursor
                (by simpa [Part.source] using whole) awaits (by simp; omega)
              simpa [Part.placedTags, Segment.ofParts, Segment.render, Part.source,
                List.drop_append_of_le_length reached, Function.comp_def] using step
          | some candidate =>
              have step := ih before (some (candidate.add (.plain c))) waiting cursor
                (by simpa [Part.source] using whole) awaits reached
              simpa [Part.placedTags, Segment.ofParts, Part.source, Nat.add_assoc] using step
      | tagged tag =>
          by_cases isOpen : tag.isOpen = true
          · have step := ih (before ++ Part.written (Candidate.held candidate)) (some ⟨tag, []⟩)
              (pushOpen { tag with start := before.length +
                (Part.written (Candidate.held candidate)).length } waiting) cursor
              (by simpa [Part.source, Candidate.parts] using whole)
              (by simpa using awaits.pushOpen tag _) (by simp; omega)
            simpa [Part.placedTags, pairTags, Segment.ofParts, isOpen, Part.source,
              Segment.render_keptAll_append, Candidate.parts, Nat.add_assoc,
              List.drop_append_of_le_length reached, Function.comp_def] using step
          · cases candidate with
            | none =>
                let placed : Tag := { tag with start := before.length }
                obtain ⟨later, touched, sameBlocks⟩ :=
                  @blocks_of_no_candidate waiting placed isOpen awaits
                    (Part.placedTags (before.length + tag.source.length) parts)
                have step := ih (before ++ tag.source) none later cursor
                  (by simpa [Part.source] using whole) touched (by simp; omega)
                simp only [Part.placedTags, Candidate.held_none, Part.written_nil,
                  List.length_nil, Nat.add_zero]
                rw [sameBlocks]
                simpa [Segment.ofParts, isOpen, Segment.render, Part.source,
                  List.drop_append_of_le_length reached, Function.comp_def] using step
            | some candidate =>
                obtain ⟨outer, rfl, touched⟩ := awaits
                by_cases fits : candidate.opening.key = tag.key
                · have step := ih (before ++ Part.written candidate.parts ++ tag.source) none outer
                    (before ++ Part.written candidate.parts ++ tag.source).length
                    (by simpa [Part.source] using whole) touched (Nat.le_refl _)
                  have outside : Text.slice cursor before.length text = before.drop cursor := by
                    rw [whole, Text.slice_upTo reached]
                  have inside : Text.slice (before.length + candidate.opening.source.length)
                      (before.length + (Part.written candidate.parts).length) text =
                        Part.written candidate.content := by
                    rw [whole]
                    exact candidate.slice_content before _
                  simp only [Part.placedTags, pairTags, isOpen, fits, Candidate.held_some,
                    replaceBlocksFrom, Block.inner, Block.start, Block.stop, Tag.stop,
                    Segment.ofParts, Segment.render, Bool.false_eq_true, if_false, if_true,
                    outside, inside]
                  simp only [List.drop_length, List.nil_append, id_map'] at step
                  simp only [List.length_append, Candidate.held_none, Part.written_nil,
                    List.length_nil, Nat.add_zero, Block.inner, Tag.stop] at step
                  rw [step]
                  simp
                · have step := ih before (some (candidate.add (.tagged tag))) _ cursor
                    (by simpa [Part.source] using whole) ⟨outer, rfl, touched⟩ reached
                  simpa [Part.placedTags, pairTags, Segment.ofParts, isOpen, fits, Part.source,
                    Nat.add_assoc] using step

theorem blocks_pairTags (parts : List Part) (start place : Nat) (waiting : List OpenTag)
    (candidate : Option Candidate) (awaits : Awaits place waiting candidate) :
    (pairTags waiting (Part.placedTags start parts)).blocks.map
        (fun block => (block.opening.unplaced, block.closing.unplaced)) =
      ((Segment.ofParts candidate parts).filterMap Segment.span?).map
        (fun span => (span.opening.unplaced, span.closing.unplaced)) := by
  induction parts generalizing start place waiting candidate with
  | nil => simp [Part.placedTags, pairTags, Segment.ofParts]
  | cons part parts ih =>
      cases part with
      | plain c =>
          cases candidate with
          | none =>
              simpa [Part.placedTags, Segment.ofParts, List.filterMap_cons] using
                ih (start + 1) place waiting none awaits
          | some candidate =>
              exact ih (start + 1) place waiting (some (candidate.add (.plain c))) awaits
      | tagged tag =>
          by_cases isOpen : tag.isOpen = true
          · simpa [Part.placedTags, pairTags, Segment.ofParts, isOpen] using
              ih (start + tag.source.length) start _ _ (awaits.pushOpen tag start)
          · cases candidate with
            | none =>
                let placed : Tag := { tag with start }
                obtain ⟨later, touched, sameBlocks⟩ :=
                  @blocks_of_no_candidate waiting placed isOpen awaits
                    (Part.placedTags (start + tag.source.length) parts)
                rw [Part.placedTags, sameBlocks]
                simpa [Segment.ofParts, isOpen, List.filterMap_cons] using
                  ih (start + tag.source.length) place later none touched
            | some candidate =>
                obtain ⟨outer, rfl, touched⟩ := awaits
                by_cases fits : candidate.opening.key = tag.key
                · simpa [Part.placedTags, pairTags, Segment.ofParts, isOpen, fits,
                    Tag.unplaced] using ih (start + tag.source.length) place outer none touched
                · simpa [Part.placedTags, pairTags, Segment.ofParts, isOpen, fits] using
                    ih (start + tag.source.length) place _ (some (candidate.add (.tagged tag)))
                      ⟨outer, rfl, touched⟩

theorem BlockMarkup.Reads.replaceBlocks {m : Type → Type} [Monad m] [LawfulMonad m]
    {markup : BlockMarkup} {parts : List Part} (reads : markup.Reads parts)
    (exchange : Text → Text → m Text) :
    Covenant.replaceBlocks exchange (Part.written parts)
        (markup.scan (Part.written parts)).blocks =
      Segment.render exchange (Segment.ofParts none parts) := by
  have replaced := replaceBlocksFrom_pairTags exchange parts [] none [] 0 rfl (by simp [Awaits])
    (Nat.le_refl 0)
  simpa [Covenant.replaceBlocks, reads.scan_written] using replaced

theorem BlockMarkup.Reads.blocks_isEmpty {markup : BlockMarkup} {parts : List Part}
    (reads : markup.Reads parts) :
    (markup.scan (Part.written parts)).blocks.isEmpty = (spans parts).isEmpty := by
  have sameBlocks := congrArg List.isEmpty
    (blocks_pairTags parts 0 0 [] none (by simp [Awaits]))
  simpa [reads.scan_written, spans] using sameBlocks

end Covenant
