import Covenant.Proofs.Outcome
import Covenant.Proofs.Template.Nest
import Covenant.Proofs.Template.Tokenised

/-!
# Blocks between tokens

Block markup whose tags are tokens keeps a text tokenised, whatever it makes of the contents of
blocks, as long as that is tokenised too.  A pass that runs to its end without a fault leaves no
tag: an open tag that nothing follows is part of a block or unclosed.
-/

namespace Covenant

open Loop (Symbol)

/-! ### Scans without blocks and faults -/

/-- Open tags, the innermost of which no other tag has followed, end in a block or in a fault. -/
theorem blocks_or_faults_of_waiting (tags : List Tag) {innermost : OpenTag} (outer : List OpenTag)
    (flat : innermost.hasInner = false) :
    (pairTags (innermost :: outer) tags).blocks ≠ [] ∨
      (pairTags (innermost :: outer) tags).faults ≠ [] := by
  induction tags generalizing innermost outer with
  | nil => simp [pairTags]
  | cons tag tags ih =>
      by_cases isOpen : tag.isOpen = true
      · have waiting : ({ tag } : OpenTag).hasInner = false := rfl
        simpa [pairTags, isOpen, pushOpen] using ih ({ innermost with hasInner := true } :: outer) waiting
      · by_cases fits : innermost.tag.key = tag.key
        · simp [pairTags, isOpen, fits, flat]
        · simp [pairTags, isOpen, fits]

theorem eq_nil_of_no_blocks_and_faults {tags : List Tag} (noBlocks : (pairTags [] tags).blocks = [])
    (noFaults : (pairTags [] tags).faults = []) : tags = [] := by
  cases tags with
  | nil => rfl
  | cons tag tags =>
      by_cases isOpen : tag.isOpen = true
      · simp only [pairTags, isOpen, if_true, pushOpen] at noBlocks noFaults
        have waiting : ({ tag } : OpenTag).hasInner = false := rfl
        have ends := blocks_or_faults_of_waiting tags [] waiting
        exact absurd noFaults (ends.resolve_left (absurd noBlocks ·))
      · simp [pairTags, isOpen] at noFaults

theorem eq_nil_of_addProblems {problems : List Text} {faults : List MarkupFault}
    (none : addProblems problems faults = []) : problems = [] ∧ faults = [] := by
  constructor
  · refine List.eq_nil_iff_forall_not_mem.mpr fun message member => ?_
    have reported : message ∈ addProblems problems faults := mem_addProblems.mpr (.inl member)
    simp [none] at reported
  · refine List.eq_nil_iff_forall_not_mem.mpr fun fault member => ?_
    have reported : fault.message ∈ addProblems problems faults :=
      mem_addProblems.mpr (.inr ⟨fault, member, rfl⟩)
    simp [none] at reported

namespace BlockMarkup

variable {markup : BlockMarkup} {marks : Char → Bool} {kept : Text → Prop}
  {tag? : Text → Option TagForm} {symbols : List Symbol}

/-! ### Symbols as parts -/

/-- The parts that symbols are read as. -/
def symbolParts (markup : BlockMarkup) (tag? : Text → Option TagForm) (symbols : List Symbol) :
    List Part := (symbols.flatMap (Symbol.piecesBy tag?)).map markup.partOf

theorem symbolParts_cons (symbol : Symbol) (symbols : List Symbol) :
    markup.symbolParts tag? (symbol :: symbols) =
      (symbol.piecesBy tag?).map markup.partOf ++ markup.symbolParts tag? symbols := by
  simp [symbolParts]

theorem map_partOf_plain (text : Text) :
    (text.map Piece.plain).map markup.partOf = Part.plains text := by
  simp [partOf, Part.plains]

@[simp]
theorem written_symbolParts : Part.written (markup.symbolParts tag? symbols) = Symbol.written symbols := by
  induction symbols with
  | nil => rfl
  | cons symbol symbols ih =>
      have own : Part.written ((symbol.piecesBy tag?).map markup.partOf) = symbol.source := by
        cases symbol with
        | char c => rfl
        | slot content =>
            rw [Symbol.piecesBy]
            split
            · simp [partOf, Part.source, tagOf]
            · rw [map_partOf_plain, Part.written_plains]
      rw [symbolParts_cons, Part.written_append, own, ih]
      rfl

theorem reads_symbolParts (reads : ReadsSlots markup.recognise marks tag?)
    (bear : ∀ symbol ∈ symbols, symbol.Bears marks kept) :
    markup.Reads (markup.symbolParts tag? symbols) := by
  intro rest
  induction symbols with
  | nil => rfl
  | cons symbol symbols ih =>
      have later := ih fun other member => bear other (List.mem_cons_of_mem symbol member)
      have unplaced : ((symbol.piecesBy tag?).map markup.partOf).map Part.unplaced =
          (symbol.piecesBy tag?).map markup.partOf := by
        rw [List.map_map]
        refine List.map_congr_left fun piece _ => ?_
        cases piece <;> rfl
      rw [written_symbolParts] at later ⊢
      have written : Symbol.written (symbol :: symbols) = symbol.source ++ Symbol.written symbols :=
        rfl
      rw [symbolParts_cons, List.map_append, unplaced, List.append_assoc, ← later, written,
        List.append_assoc]
      simp only [parts, reads.cut_source (bear symbol List.mem_cons_self), List.map_append]

theorem placedTags_ne_nil {content : Text} {form : TagForm} (member : Symbol.slot content ∈ symbols)
    (isTag : tag? content = some form) (start : Nat) :
    Part.placedTags start (markup.symbolParts tag? symbols) ≠ [] := by
  have inParts : Part.tagged (markup.tagOf ⟨form, 0, (Symbol.slot content).source⟩) ∈
      markup.symbolParts tag? symbols := by
    refine List.mem_map.mpr ⟨.token form (Symbol.slot content).source, ?_, rfl⟩
    exact List.mem_flatMap.mpr ⟨_, member, by simp [Symbol.piecesBy, isTag]⟩
  generalize markup.symbolParts tag? symbols = parts at inParts
  induction parts generalizing start with
  | nil => cases inParts
  | cons part parts ih =>
      cases part with
      | plain c => exact ih (start + 1) (by simpa using inParts)
      | tagged tag => exact List.cons_ne_nil _ _

/-! ### Exchanging blocks -/

/-- Exchanging blocks yields tokenised texts from tokenised contents. -/
def RendersTokenised (marks : Char → Bool) (kept : Text → Prop)
    (render : Text → Text → Outcome Text) : Prop :=
  ∀ argument body text, Tokenised marks kept body → render argument body = .ok text →
    Tokenised marks kept text

/-- The parts of a candidate make a tokenised text. -/
def HoldsTokenised (marks : Char → Bool) (kept : Text → Prop) (candidate : Option Candidate) : Prop :=
  ∀ held ∈ candidate, Tokenised marks kept held.opening.source ∧
    Tokenised marks kept (Part.written held.content)

theorem HoldsTokenised.none : HoldsTokenised marks kept none := fun _ held => nomatch held

theorem HoldsTokenised.held {candidate : Option Candidate}
    (holds : HoldsTokenised marks kept candidate) :
    Tokenised marks kept (Part.written (Candidate.held candidate)) := by
  cases candidate with
  | none => exact .of_lacks Lacks.nil
  | some candidate =>
      obtain ⟨opening, content⟩ := holds candidate rfl
      exact opening.append content

theorem HoldsTokenised.addAll {candidate : Candidate} {parts : List Part}
    (holds : HoldsTokenised marks kept (some candidate))
    (tokenised : Tokenised marks kept (Part.written parts)) :
    HoldsTokenised marks kept (some (candidate.addAll parts)) := by
  rintro held ⟨⟩
  obtain ⟨opening, content⟩ := holds candidate rfl
  refine ⟨opening, ?_⟩
  rw [Candidate.addAll, Part.written_append]
  exact content.append tokenised

section Render

variable {render : Text → Text → Outcome Text} {parts : List Part}

/-- Whatever candidate stands in front, parts are rendered to a tokenised text. -/
def RendersParts (marks : Char → Bool) (kept : Text → Prop) (render : Text → Text → Outcome Text)
    (parts : List Part) : Prop :=
  ∀ candidate text, HoldsTokenised marks kept candidate →
    Segment.render render (Segment.ofParts candidate parts) = .ok text → Tokenised marks kept text

theorem RendersParts.nil : RendersParts marks kept render [] := by
  intro candidate text holds rendered
  have flushed := Segment.render_keptAll_append render (Candidate.held candidate) []
  rw [List.append_nil] at flushed
  rw [Segment.ofParts, flushed] at rendered
  obtain rfl := Except.ok.inj rendered
  exact holds.held.append (.of_lacks Lacks.nil)

theorem RendersParts.plains (later : RendersParts marks kept render parts) {source : Text}
    (tokenised : Tokenised marks kept source) :
    RendersParts marks kept render (Part.plains source ++ parts) := by
  intro candidate text holds rendered
  have noTags : tagsIn (Part.plains source) = [] := by simp [tagsIn, Part.plains]
  cases candidate with
  | none =>
      rw [Segment.ofParts_none_closings (by simp [noTags]), Segment.render_keptAll_append] at rendered
      obtain ⟨rest, restRendered, rfl⟩ := Outcome.map_eq_ok_iff.mp rendered
      rw [Part.written_plains]
      exact tokenised.append (later none rest holds restRendered)
  | some candidate =>
      rw [Segment.ofParts_some_strays _ (by simp [noTags])] at rendered
      exact later _ text (holds.addAll (by rwa [Part.written_plains])) rendered

theorem RendersParts.tagged (renders : RendersTokenised marks kept render)
    (later : RendersParts marks kept render parts) {tag : Tag}
    (tokenised : Tokenised marks kept tag.source) :
    RendersParts marks kept render (.tagged tag :: parts) := by
  intro candidate text holds rendered
  by_cases isOpen : tag.isOpen = true
  · have opens : Segment.ofParts candidate (.tagged tag :: parts) =
        Segment.keptAll (Candidate.held candidate) ++ Segment.ofParts (some ⟨tag, []⟩) parts := by
      cases candidate <;> simp [Segment.ofParts, isOpen]
    rw [opens, Segment.render_keptAll_append] at rendered
    obtain ⟨rest, restRendered, rfl⟩ := Outcome.map_eq_ok_iff.mp rendered
    refine holds.held.append (later (some ⟨tag, []⟩) rest ?_ restRendered)
    rintro held ⟨⟩
    exact ⟨tokenised, .of_lacks Lacks.nil⟩
  · cases candidate with
    | none =>
        rw [Segment.ofParts, if_neg isOpen] at rendered
        obtain ⟨rest, restRendered, joined⟩ := Outcome.bind_eq_ok_iff.mp rendered
        obtain rfl := Except.ok.inj joined
        exact tokenised.append (later none rest holds restRendered)
    | some candidate =>
        rw [Segment.ofParts, if_neg isOpen] at rendered
        split at rendered
        · obtain ⟨inner, innerRendered, rendered⟩ := Outcome.bind_eq_ok_iff.mp rendered
          obtain ⟨rest, restRendered, joined⟩ := Outcome.bind_eq_ok_iff.mp rendered
          obtain rfl := Except.ok.inj joined
          exact (renders _ _ _ (holds candidate rfl).2 innerRendered).append
            (later none rest .none restRendered)
        · have single : Tokenised marks kept (Part.written [.tagged tag]) := by
            simpa [Part.source] using tokenised
          exact later _ text (holds.addAll single) rendered

theorem rendersParts_symbolParts (renders : RendersTokenised marks kept render)
    (bear : ∀ symbol ∈ symbols, symbol.Bears marks kept) :
    RendersParts marks kept render (markup.symbolParts tag? symbols) := by
  induction symbols with
  | nil => exact .nil
  | cons symbol symbols ih =>
      have later := ih fun other member => bear other (List.mem_cons_of_mem symbol member)
      have own : Tokenised marks kept symbol.source :=
        ⟨[symbol], by simp [Symbol.written], by simpa using bear symbol List.mem_cons_self⟩
      rw [symbolParts_cons]
      cases symbol with
      | char c => exact later.plains own
      | slot content =>
          rw [Symbol.piecesBy]
          split
          · exact later.tagged renders own
          · rw [map_partOf_plain]
            exact later.plains own

end Render

/-! ### Reducing -/

theorem lacks_tags (reads : ReadsSlots markup.recognise marks tag?) {text : Text}
    (tokenised : Tokenised marks kept text) (noBlocks : (markup.scan text).blocks = [])
    (noFaults : (markup.scan text).faults = []) :
    Tokenised marks (fun content => kept content ∧ tag? content = none) text := by
  obtain ⟨symbols, rfl, bear⟩ := tokenised
  have scanned := (reads_symbolParts reads bear).scan_written
  rw [written_symbolParts] at scanned
  rw [scanned] at noBlocks noFaults
  have noTags := eq_nil_of_no_blocks_and_faults noBlocks noFaults
  refine ⟨symbols, rfl, fun symbol member => ?_⟩
  have own := bear symbol member
  cases symbol with
  | char c => exact own
  | slot content =>
      refine ⟨own.1, fun isToken => ⟨own.2 isToken, ?_⟩⟩
      by_contra isTag
      obtain ⟨form, isTag⟩ := Option.ne_none_iff_exists'.mp isTag
      exact placedTags_ne_nil member isTag 0 noTags

/-- A run keeps a text tokenised, and one that ends without a fault leaves no tag. -/
theorem tokenised_reduce (reads : ReadsSlots markup.recognise marks tag?)
    {render : Text → Text → Outcome Text} (renders : RendersTokenised marks kept render)
    {passes : Nat} {problems : List Text} {text : Text} {reduced : Reduced}
    (tokenised : Tokenised marks kept text)
    (reduces : markup.reduce render passes problems text = .ok reduced) :
    Tokenised marks kept reduced.text ∧
      (reduced.finished = true → reduced.problems = [] →
        Tokenised marks (fun content => kept content ∧ tag? content = none) reduced.text) := by
  induction passes generalizing problems text with
  | zero =>
      rw [reduce] at reduces
      split at reduces
      · rename_i noBlocks
        obtain rfl := Except.ok.inj reduces
        refine ⟨tokenised, fun _ noProblems => ?_⟩
        exact lacks_tags reads tokenised (List.isEmpty_iff.mp noBlocks)
          (eq_nil_of_addProblems noProblems).2
      · obtain rfl := Except.ok.inj reduces
        exact ⟨tokenised, fun isFinished => absurd isFinished Bool.false_ne_true⟩
  | succ passes ih =>
      rw [reduce] at reduces
      split at reduces
      · rename_i noBlocks
        obtain rfl := Except.ok.inj reduces
        refine ⟨tokenised, fun _ noProblems => ?_⟩
        exact lacks_tags reads tokenised (List.isEmpty_iff.mp noBlocks)
          (eq_nil_of_addProblems noProblems).2
      · obtain ⟨next, replaced, reduces⟩ := Outcome.bind_eq_ok_iff.mp reduces
        obtain ⟨symbols, rfl, bear⟩ := tokenised
        have isReplaced := (reads_symbolParts reads bear).replaceBlocks render
        rw [written_symbolParts, replaced] at isReplaced
        exact ih (rendersParts_symbolParts renders bear none next .none isReplaced.symm) reduces

/-- Rendering that cannot fail is the same in any monad. -/
theorem reduce_pure (render : Text → Text → Text) (passes : Nat) (problems : List Text) (text : Text) :
    markup.reduce (fun argument body => (pure (render argument body) : Outcome Text)) passes problems
        text =
      .ok (Id.run (markup.reduce (fun argument body => pure (render argument body)) passes problems
        text)) := by
  have replaced (text : Text) (render : Block → Text) (cursor : Nat) (blocks : List Block) :
      replaceBlocksFrom text (fun block => (pure (render block) : Outcome Text)) cursor blocks =
        .ok (Id.run (replaceBlocksFrom text (fun block => pure (render block)) cursor blocks)) := by
    induction blocks generalizing cursor with
    | nil => rfl
    | cons block blocks ih =>
        rw [replaceBlocksFrom, replaceBlocksFrom, pure_bind, ih]
        rfl
  induction passes generalizing problems text with
  | zero =>
      rw [reduce, reduce]
      split
      · rfl
      · rfl
  | succ passes ih =>
      rw [reduce, reduce]
      split
      · rfl
      · rw [replaceBlocks, replaced]
        exact ih _ _

end BlockMarkup

end Covenant
