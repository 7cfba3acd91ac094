import Covenant.Proofs.Template.Nest

/-!
# Leaves and forests

Reducing a well-formed template exchanges every block for a text that again has no tag in it.
A `LeafLanguage` names such texts: they can be put together, no tag is found in them, and
rendering a block around one gives another.  The reduction of a nest with leaves from a leaf
language is the nest with its blocks exchanged from the inside out, up to the height that is the
number of passes; nothing is reported, and the reduction is finished when no block is higher.
-/

namespace Covenant

/-- Texts without tags, and tags around which `render` gives what `value` says. -/
structure LeafLanguage {m : Type → Type} [Monad m] (markup : BlockMarkup)
    (render : Text → Text → m Text) (value : Text → Text → Text) (IsLeaf : Text → Prop)
    (IsTag : Tag → Prop) : Prop where
  nil : IsLeaf []
  append : ∀ {first second}, IsLeaf first → IsLeaf second → IsLeaf (first ++ second)
  reads : ∀ {text}, IsLeaf text → markup.Reads (Part.plains text)
  readsTag : ∀ {tag}, IsTag tag → markup.Reads [.tagged tag]
  renders : ∀ {opening text}, IsTag opening → opening.isOpen = true → IsLeaf text →
    render opening.argument text = pure (value opening.argument text)
  closed : ∀ {opening text}, IsTag opening → opening.isOpen = true → IsLeaf text →
    IsLeaf (value opening.argument text)

/-- Exchanges a block for the characters of a text. -/
def textExchange (value : Text → Text → Text) : Exchange := fun opening content =>
  Part.plains (value opening.argument (Part.written content))

@[simp]
theorem tagsIn_plains (text : Text) : tagsIn (Part.plains text) = [] := by
  induction text with
  | nil => rfl
  | cons c text ih => exact ih

@[simp]
theorem Part.plains_append (first second : Text) :
    plains (first ++ second) = plains first ++ plains second := by
  simp [plains]

namespace Nest

/-- All leaves are from a leaf language, and the tags of every block pair. -/
def Speaks (IsLeaf : Text → Prop) (IsTag : Tag → Prop) : Nest → Prop
  | nil => True
  | leaf content rest =>
      (∃ text, IsLeaf text ∧ content = Part.plains text) ∧ rest.Speaks IsLeaf IsTag
  | block opening inner closing rest =>
      (IsTag opening ∧ opening.isOpen = true) ∧ (IsTag closing ∧ closing.isOpen = false) ∧
        opening.key = closing.key ∧ inner.Speaks IsLeaf IsTag ∧ rest.Speaks IsLeaf IsTag

section Speaking

variable {IsLeaf : Text → Prop} {IsTag : Tag → Prop} {nest : Nest}

theorem Speaks.matched (speaks : nest.Speaks IsLeaf IsTag) (around : Option Tag) :
    nest.Matched around := by
  induction nest generalizing around with
  | nil => trivial
  | leaf content rest ih =>
      obtain ⟨⟨text, -, rfl⟩, speaksRest⟩ := speaks
      exact ⟨by simp, ih speaksRest around⟩
  | block opening inner closing rest innerIH restIH =>
      obtain ⟨⟨-, isOpening⟩, ⟨-, isClosing⟩, fits, speaksInner, speaksRest⟩ := speaks
      exact ⟨isOpening, isClosing, fits, innerIH speaksInner _, restIH speaksRest around⟩

theorem Speaks.strays_eq_nil (speaks : nest.Speaks IsLeaf IsTag) (around : List Tag) :
    nest.strays around = [] := by
  induction nest generalizing around with
  | nil => rfl
  | leaf content rest ih =>
      obtain ⟨⟨text, -, rfl⟩, speaksRest⟩ := speaks
      simp [strays, ih speaksRest around]
  | block opening inner closing rest innerIH restIH =>
      obtain ⟨-, -, -, speaksInner, speaksRest⟩ := speaks
      simp [strays, innerIH speaksInner, restIH speaksRest around]

theorem Speaks.faultsOf_eq_nil (speaks : nest.Speaks IsLeaf IsTag) :
    faultsOf nest.parts = [] :=
  Nest.faultsOf_eq_nil (speaks.matched none) (speaks.strays_eq_nil [])

end Speaking

end Nest

namespace LeafLanguage

variable {m : Type → Type} [Monad m] {markup : BlockMarkup}
  {render : Text → Text → m Text} {value : Text → Text → Text} {IsLeaf : Text → Prop}
  {IsTag : Tag → Prop} {nest : Nest}

theorem parts_of_flat (language : LeafLanguage markup render value IsLeaf IsTag)
    (speaks : nest.Speaks IsLeaf IsTag) (flat : nest.height = 0) :
    ∃ text, IsLeaf text ∧ nest.parts = Part.plains text := by
  induction nest with
  | nil => exact ⟨[], language.nil, rfl⟩
  | leaf content rest ih =>
      obtain ⟨⟨first, isLeaf, rfl⟩, speaksRest⟩ := speaks
      obtain ⟨second, isLeafRest, partsRest⟩ := ih speaksRest (by simpa [Nest.height] using flat)
      exact ⟨first ++ second, language.append isLeaf isLeafRest, by simp [Nest.parts, partsRest]⟩
  | block opening inner closing rest => simp [Nest.height] at flat

theorem reads_parts (language : LeafLanguage markup render value IsLeaf IsTag)
    (speaks : nest.Speaks IsLeaf IsTag) : markup.Reads nest.parts := by
  induction nest with
  | nil => exact .nil
  | leaf content rest ih =>
      obtain ⟨⟨text, isLeaf, rfl⟩, speaksRest⟩ := speaks
      exact (language.reads isLeaf).append (ih speaksRest)
  | block opening inner closing rest innerIH restIH =>
      obtain ⟨⟨isTagOpening, -⟩, ⟨isTagClosing, -⟩, -, speaksInner, speaksRest⟩ := speaks
      have afterInner := (language.readsTag isTagClosing).append (restIH speaksRest)
      exact (language.readsTag isTagOpening).append ((innerIH speaksInner).append afterInner)

theorem speaks_reduced (language : LeafLanguage markup render value IsLeaf IsTag)
    (speaks : nest.Speaks IsLeaf IsTag) :
    (nest.reduced (textExchange value)).Speaks IsLeaf IsTag := by
  induction nest with
  | nil => trivial
  | leaf content rest ih => exact ⟨speaks.1, ih speaks.2⟩
  | block opening inner closing rest innerIH restIH =>
      obtain ⟨opens, closes, fits, speaksInner, speaksRest⟩ := speaks
      by_cases flat : inner.height = 0
      · obtain ⟨text, isLeaf, innerParts⟩ := language.parts_of_flat speaksInner flat
        simp only [Nest.reduced, flat, if_true, Nest.Speaks]
        refine ⟨⟨_, language.closed opens.1 opens.2 isLeaf, ?_⟩, restIH speaksRest⟩
        simp [textExchange, innerParts]
      · simp only [Nest.reduced, flat, if_false]
        exact ⟨opens, closes, fits, innerIH speaksInner, restIH speaksRest⟩

theorem renders_span [LawfulMonad m]
    (language : LeafLanguage markup render value IsLeaf IsTag)
    (speaks : nest.Speaks IsLeaf IsTag) :
    ∀ span ∈ nest.segments.filterMap Segment.span?,
      render span.opening.argument (Part.written span.content) =
        pure (Part.written (textExchange value span.opening span.content)) := by
  induction nest with
  | nil => simp [Nest.segments]
  | leaf content rest ih => simpa [Nest.segments] using ih speaks.2
  | block opening inner closing rest innerIH restIH =>
      obtain ⟨opens, -, -, speaksInner, speaksRest⟩ := speaks
      intro span member
      by_cases flat : inner.height = 0
      · obtain ⟨text, isLeaf, innerParts⟩ := language.parts_of_flat speaksInner flat
        rcases (by simpa [Nest.segments, flat] using member) with rfl | member
        · simp [innerParts, textExchange, language.renders opens.1 opens.2 isLeaf]
        · exact restIH speaksRest span (by simpa using member)
      · rcases (by simpa [Nest.segments, flat, List.filterMap_cons] using member) with
          member | member
        · exact innerIH speaksInner span (by simpa using member)
        · exact restIH speaksRest span (by simpa using member)

theorem simulation [LawfulMonad m] (language : LeafLanguage markup render value IsLeaf IsTag) :
    Simulation markup render (textExchange value)
      (fun parts => ∃ nest : Nest, nest.Speaks IsLeaf IsTag ∧ parts = nest.parts) where
  reads := by
    rintro parts ⟨nest, speaks, rfl⟩
    exact language.reads_parts speaks
  renders := by
    rintro parts ⟨nest, speaks, rfl⟩
    rw [spans, Nest.ofParts_of_matched (speaks.matched none)]
    exact language.renders_span speaks
  preserved := by
    rintro parts ⟨nest, speaks, rfl⟩
    exact ⟨_, language.speaks_reduced speaks, Nest.pass_of_matched _ (speaks.matched none)⟩

theorem run_parts (language : LeafLanguage markup render value IsLeaf IsTag) (passes : Nat)
    (problems : List Text) (speaks : nest.Speaks IsLeaf IsTag) :
    (Trace.run (textExchange value) passes problems nest.parts).reduced =
      ⟨Part.written (nest.settled (textExchange value) passes), problems,
        decide (nest.height ≤ passes)⟩ := by
  induction passes generalizing problems nest with
  | zero =>
      by_cases flat : nest.height = 0
      · have noSpans := (Nest.spans_eq_nil_iff (speaks.matched none)).mpr flat
        rw [Trace.run_of_no_spans _ _ _ _ noSpans]
        simp [Trace.reduced, Nest.settled_zero, speaks.faultsOf_eq_nil, addProblems, flat]
      · have hasSpans := (Nest.spans_eq_nil_iff (speaks.matched none)).not.mpr flat
        rw [Trace.run_zero _ _ _ hasSpans]
        simp [Trace.reduced, Nest.settled_zero, speaks.faultsOf_eq_nil, addProblems, flat]
  | succ passes ih =>
      by_cases flat : nest.height = 0
      · have noSpans := (Nest.spans_eq_nil_iff (speaks.matched none)).mpr flat
        rw [Trace.run_of_no_spans _ _ _ _ noSpans]
        simp [Trace.reduced, Nest.settled_of_flat _ _ flat, speaks.faultsOf_eq_nil, addProblems,
          flat]
      · have hasSpans := (Nest.spans_eq_nil_iff (speaks.matched none)).not.mpr flat
        have lower : nest.height - 1 ≤ passes ↔ nest.height ≤ passes + 1 := by omega
        have later := ih problems (language.speaks_reduced speaks)
        rw [Nest.height_reduced, Nest.settled_reduced] at later
        rw [Trace.run_succ _ _ _ _ hasSpans, Nest.pass_of_matched _ (speaks.matched none),
          speaks.faultsOf_eq_nil]
        simpa [Trace.reduced, addProblems, lower] using later

/-- Reducing a nest exchanges its blocks up to the height that is the number of passes. -/
theorem reduce_nest [LawfulMonad m] (language : LeafLanguage markup render value IsLeaf IsTag)
    (passes : Nat) (problems : List Text) (speaks : nest.Speaks IsLeaf IsTag) :
    markup.reduce render passes problems (Part.written nest.parts) =
      pure ⟨Part.written (nest.settled (textExchange value) passes), problems,
        decide (nest.height ≤ passes)⟩ := by
  rw [language.simulation.reduce_written passes problems ⟨nest, speaks, rfl⟩,
    language.run_parts passes problems speaks]

end LeafLanguage

end Covenant

/-!
## Forests of blocks

A template as its author means it: leaves, and nodes that become a block with an opening tag for
their argument and a closing tag for their name.  Of a well-formed forest every leaf is legible
and the argument and the name of every node fit, so the tags that are written pair as meant.
-/

namespace Covenant

inductive Forest (α : Type) where
  | nil
  | leaf (content : α) (rest : Forest α)
  | node (argument : Text) (inner : Forest α) (name : Text) (rest : Forest α)

structure Writing (α : Type) where
  leaf : α → Text
  opening : Text → Text
  closing : Text → Text

namespace Forest

variable {α : Type}

/-- How deep nodes are nested; a node without nodes inside has height one. -/
def height : Forest α → Nat
  | nil => 0
  | leaf _ rest => rest.height
  | node _ inner _ rest => max (inner.height + 1) rest.height

def WellFormed (IsLeaf : α → Prop) (Fits : Text → Text → Prop) : Forest α → Prop
  | nil => True
  | leaf content rest => IsLeaf content ∧ rest.WellFormed IsLeaf Fits
  | node argument inner name rest =>
      Fits argument name ∧ inner.WellFormed IsLeaf Fits ∧ rest.WellFormed IsLeaf Fits

/-- The text in which a forest is written. -/
def text (writing : Writing α) : Forest α → Text
  | nil => []
  | leaf content rest => writing.leaf content ++ rest.text writing
  | node argument inner name rest =>
      writing.opening argument ++ inner.text writing ++ writing.closing name ++ rest.text writing

/-- The text in which every node up to a height is resolved, from the inside out: a node becomes
what `value` makes of its argument and its resolved content.  Higher nodes keep their tags. -/
def settled (writing : Writing α) (value : Text → Text → Text) (limit : Nat) : Forest α → Text
  | nil => []
  | leaf content rest => writing.leaf content ++ rest.settled writing value limit
  | node argument inner name rest =>
      let content := inner.settled writing value limit
      (if inner.height + 1 ≤ limit then value argument content
        else writing.opening argument ++ content ++ writing.closing name) ++
        rest.settled writing value limit

/-- The nest of the parts that are written for a forest. -/
def nest (markup : BlockMarkup) (writing : Writing α) : Forest α → Nest
  | nil => .nil
  | leaf content rest => .leaf (Part.plains (writing.leaf content)) (rest.nest markup writing)
  | node argument inner name rest =>
      .block (markup.tagOf ⟨⟨true, argument⟩, 0, writing.opening argument⟩)
        (inner.nest markup writing)
        (markup.tagOf ⟨⟨false, name⟩, 0, writing.closing name⟩)
        (rest.nest markup writing)

section Nests

variable (markup : BlockMarkup) (writing : Writing α) {forest : Forest α}
  {IsLeaf : α → Prop} {Fits : Text → Text → Prop}

theorem written_parts_nest (forest : Forest α) :
    Part.written (forest.nest markup writing).parts = forest.text writing := by
  induction forest with
  | nil => rfl
  | leaf content rest ih => simp [nest, Nest.parts, text, ih]
  | node argument inner name rest innerIH restIH =>
      simp [nest, Nest.parts, text, innerIH, restIH, Part.source, BlockMarkup.tagOf]

@[simp]
theorem height_nest (forest : Forest α) :
    (forest.nest markup writing).height = forest.height := by
  induction forest with
  | nil => rfl
  | leaf content rest ih => simpa [nest, Nest.height, height] using ih
  | node argument inner name rest innerIH restIH =>
      simp [nest, Nest.height, height, innerIH, restIH]

/-- The nest of a forest speaks a leaf language when its leaves and its tags do. -/
theorem speaks_nest {IsLeafText : Text → Prop} {IsTag : Tag → Prop}
    (leaves : ∀ content, IsLeaf content → IsLeafText (writing.leaf content))
    (tags : ∀ argument name, Fits argument name →
      IsTag (markup.tagOf ⟨⟨true, argument⟩, 0, writing.opening argument⟩) ∧
      IsTag (markup.tagOf ⟨⟨false, name⟩, 0, writing.closing name⟩) ∧
      (markup.tagOf ⟨⟨true, argument⟩, 0, writing.opening argument⟩).key =
        (markup.tagOf ⟨⟨false, name⟩, 0, writing.closing name⟩).key)
    (wellFormed : forest.WellFormed IsLeaf Fits) :
    (forest.nest markup writing).Speaks IsLeafText IsTag := by
  induction forest with
  | nil => trivial
  | leaf content rest ih =>
      exact ⟨⟨_, leaves content wellFormed.1, rfl⟩, ih wellFormed.2⟩
  | node argument inner name rest innerIH restIH =>
      obtain ⟨fits, wellFormedInner, wellFormedRest⟩ := wellFormed
      obtain ⟨isOpening, isClosing, sameKey⟩ := tags argument name fits
      exact ⟨⟨isOpening, rfl⟩, ⟨isClosing, rfl⟩, sameKey, innerIH wellFormedInner,
        restIH wellFormedRest⟩

theorem written_settled_nest {value : Text → Text → Text} (limit : Nat)
    (trimmed : ∀ argument name, Fits argument name → ∀ content,
      value (Text.trim argument) content = value argument content)
    (wellFormed : forest.WellFormed IsLeaf Fits) :
    Part.written ((forest.nest markup writing).settled (textExchange value) limit) =
      forest.settled writing value limit := by
  induction forest with
  | nil => rfl
  | leaf content rest ih => simp [nest, Nest.settled, settled, ih wellFormed.2]
  | node argument inner name rest innerIH restIH =>
      obtain ⟨fits, wellFormedInner, wellFormedRest⟩ := wellFormed
      simp only [nest, Nest.settled, settled, height_nest, Part.written_append,
        restIH wellFormedRest]
      by_cases low : inner.height < limit
      · have below : inner.height + 1 ≤ limit := low
        simp [low, below, textExchange, innerIH wellFormedInner, BlockMarkup.tagOf,
          trimmed argument name fits]
      · have above : ¬ inner.height + 1 ≤ limit := low
        simp [low, above, innerIH wellFormedInner, Part.source, BlockMarkup.tagOf]

end Nests

theorem exists_opening_in_text (writing : Writing α) {forest : Forest α}
    (hasNode : forest.height ≠ 0) :
    ∃ before argument after, forest.text writing = before ++ (writing.opening argument ++ after) := by
  induction forest with
  | nil => exact absurd rfl hasNode
  | leaf content rest ih =>
      obtain ⟨before, argument, after, written⟩ := ih hasNode
      exact ⟨writing.leaf content ++ before, argument, after, by simp [text, written]⟩
  | node argument inner name rest =>
      exact ⟨[], argument, inner.text writing ++ writing.closing name ++ rest.text writing,
        by simp [text]⟩

end Forest

end Covenant
