import Covenant.Proofs.Template.Segment

/-!
# Traces

The passes over a text, followed part by part.  Every pass exchanges the innermost blocks of a
row of parts for other parts, so a tag can be followed from the text in which it was written to
the last pass.  `Simulation.reduce_written` says that the reduction of a text is the text of the
trace, as long as the parts stay legible from pass to pass.
-/

namespace Covenant

/-- What a block with an opening tag and a content is exchanged for. -/
abbrev Exchange := Tag → List Part → List Part

def Segment.exchanged (exchange : Exchange) : Segment → List Part
  | kept part => [part]
  | block span => exchange span.opening span.content

@[simp]
theorem Segment.flatMap_exchanged_keptAll (exchange : Exchange) (parts : List Part) :
    (keptAll parts).flatMap (exchanged exchange) = parts := by
  simp [keptAll, List.flatMap_map, exchanged]

def pass (exchange : Exchange) (parts : List Part) : List Part :=
  (Segment.ofParts none parts).flatMap (Segment.exchanged exchange)

/-- The faults of a text that is made up of parts. -/
def faultsOf (parts : List Part) : List MarkupFault :=
  (pairTags [] (Part.placedTags 0 parts)).faults

/-- What happened to parts in repeated passes. -/
structure Trace where
  /-- The blocks that were exchanged, pass by pass. -/
  consumed : List Span
  left : List Part
  problems : List Text
  finished : Bool

namespace Trace

/-- At most the given number of passes over parts. -/
def run (exchange : Exchange) : Nat → List Text → List Part → Trace
  | passes, problems, parts =>
      let problems := addProblems problems (faultsOf parts)
      if (spans parts).isEmpty then ⟨[], parts, problems, true⟩
      else match passes with
        | 0 => ⟨[], parts, problems, false⟩
        | passes + 1 =>
            let later := run exchange passes problems (pass exchange parts)
            { later with consumed := spans parts ++ later.consumed }

def reduced (trace : Trace) : Reduced :=
  ⟨Part.written trace.left, trace.problems, trace.finished⟩

section Steps

variable (exchange : Exchange) (problems : List Text) (parts : List Part)

theorem run_of_no_spans (passes : Nat) (noSpans : spans parts = []) :
    run exchange passes problems parts =
      ⟨[], parts, addProblems problems (faultsOf parts), true⟩ := by
  cases passes <;> simp [run, noSpans]

theorem run_zero (hasSpans : spans parts ≠ []) :
    run exchange 0 problems parts =
      ⟨[], parts, addProblems problems (faultsOf parts), false⟩ := by
  simp [run, hasSpans]

theorem run_succ (passes : Nat) (hasSpans : spans parts ≠ []) :
    run exchange (passes + 1) problems parts =
      { run exchange passes (addProblems problems (faultsOf parts)) (pass exchange parts) with
        consumed := spans parts ++ (run exchange passes
          (addProblems problems (faultsOf parts)) (pass exchange parts)).consumed } := by
  simp [run, hasSpans]

end Steps

end Trace

/-- Rendering blocks as text follows an exchange of parts: parts for which `Holds` is true are
legible, their innermost blocks are rendered to the text of the exchanged parts, and after a
pass `Holds` is true again. -/
structure Simulation {m : Type → Type} [Monad m] (markup : BlockMarkup)
    (render : Text → Text → m Text) (exchange : Exchange) (Holds : List Part → Prop) : Prop where
  reads : ∀ parts, Holds parts → markup.Reads parts
  renders : ∀ parts, Holds parts → ∀ span ∈ spans parts,
    render span.opening.argument (Part.written span.content) =
      pure (Part.written (exchange span.opening span.content))
  preserved : ∀ parts, Holds parts → Holds (pass exchange parts)

theorem Segment.render_eq_written {m : Type → Type} [Monad m] [LawfulMonad m]
    {render : Text → Text → m Text} {exchange : Exchange} (segments : List Segment)
    (renders : ∀ span ∈ segments.filterMap span?,
      render span.opening.argument (Part.written span.content) =
        pure (Part.written (exchange span.opening span.content))) :
    Segment.render render segments =
      pure (Part.written (segments.flatMap (exchanged exchange))) := by
  induction segments with
  | nil => rfl
  | cons segment segments ih =>
      cases segment with
      | kept part =>
          rw [Segment.render, ih (by simpa [List.filterMap_cons] using renders)]
          simp [exchanged]
      | block span =>
          have first := renders span (by simp)
          rw [Segment.render, first, ih (fun other member => renders other (by simp [member]))]
          simp [exchanged]

namespace Simulation

variable {m : Type → Type} [Monad m] [LawfulMonad m] {markup : BlockMarkup}
  {render : Text → Text → m Text} {exchange : Exchange} {Holds : List Part → Prop}

theorem replaceBlocks_written (simulation : Simulation markup render exchange Holds)
    {parts : List Part} (holds : Holds parts) :
    replaceBlocks render (Part.written parts) (markup.scan (Part.written parts)).blocks =
      pure (Part.written (pass exchange parts)) := by
  rw [(simulation.reads parts holds).replaceBlocks]
  exact Segment.render_eq_written _ (simulation.renders parts holds)

theorem reduce_written (simulation : Simulation markup render exchange Holds) (passes : Nat)
    (problems : List Text) {parts : List Part} (holds : Holds parts) :
    markup.reduce render passes problems (Part.written parts) =
      pure (Trace.run exchange passes problems parts).reduced := by
  have reads := simulation.reads parts holds
  have sameFaults : (markup.scan (Part.written parts)).faults = faultsOf parts := by
    rw [reads.scan_written, faultsOf]
  induction passes generalizing problems parts with
  | zero =>
      rw [BlockMarkup.reduce]
      simp only [reads.blocks_isEmpty, sameFaults, Trace.run]
      split <;> rfl
  | succ passes ih =>
      rw [BlockMarkup.reduce]
      simp only [reads.blocks_isEmpty, sameFaults, Trace.run]
      split
      · rfl
      · have holdsNext := simulation.preserved parts holds
        have readsNext := simulation.reads _ holdsNext
        rw [simulation.replaceBlocks_written holds, pure_bind,
          ih _ holdsNext readsNext (by rw [readsNext.scan_written, faultsOf])]
        rfl

end Simulation

end Covenant
