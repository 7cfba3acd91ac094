import Covenant.Proofs.Template.ConditionalTrace

/-!
# When the pairing of tags is decided once

Every pass pairs the tags that are left anew.  So the pairing of the first text is final only if
keeping a block never brings a stray next to an open tag that is written differently: a tag that it
fits would be closed by it, and any other would be reported in a second message.  `StraysSettle`
says this of the text as it is given, without a pass.
-/

namespace Covenant.Conditional

/-- What the passes over a text do to its tags. -/
def trace (context : ContextMap) (passes : Int) (text : Text) : Trace :=
  Trace.run (exchange context) passes.toNat [] (Part.placed 0 (markup.parts text))

section Outcome

variable (context : ContextMap) (passes : Int) (text : Text)

/-- The tag stands in the result as it was written. -/
def Remains (tag : Tag) : Prop :=
  ∃ before after, (trace context passes text).left = before ++ .tagged tag :: after ∧
    (strip context passes text).text =
      BlankLines.collapse (Part.written before) ++
        (tag.source ++ BlankLines.collapse (Part.written after))

/-- The tag was inside a block that was left out because its test is false. -/
def IsLeftOut (tag : Tag) : Prop :=
  ∃ span ∈ (trace context passes text).consumed,
    tag ∈ tagsIn span.content ∧ test context span.opening.argument = false

/-- The tags that do not pair in the text are reported once each and stay, and the tags that pair
are used up in pairs. -/
structure PairedOnce : Prop where
  reported : (strip context passes text).problems =
    (markup.scan text).faults.map MarkupFault.message
  kept : ∀ fault ∈ (markup.scan text).faults,
    Remains context passes text fault.tag ∨ IsLeftOut context passes text fault.tag
  consumed : ∀ pair, pair ∈ (pairing [] (markup.tags text)).pairs ↔
    ∃ span ∈ (trace context passes text).consumed, span.ends = pair

/-- Every closing tag without a partner stands right inside a block that is left out, or in uniform
surroundings, and the tags that stay hold no long run of line breaks. -/
def StraysSettle : Prop :=
  (∀ stray ∈ (pairing [] (markup.tags text)).strays,
    IsDropped (keeps context) (pairing [] (markup.tags text)).unclosed stray.2 ∨
      (Uniform (pairing [] (markup.tags text)).unclosed stray.2 ∧
        BlankLines.collapse stray.1.source = stray.1.source)) ∧
    ∀ tag ∈ (pairing [] (markup.tags text)).unclosed,
      BlankLines.collapse tag.source = tag.source

instance : Decidable (StraysSettle context text) := by
  unfold StraysSettle
  infer_instance

end Outcome

variable {context : ContextMap} {passes : Int} {text : Text}

/-- In a text with brackets in tags only, all parts are legible. -/
theorem legible_parts (bracketsInTags : ∀ c, .plain c ∈ markup.parts text → isBracket c = false) :
    ∀ part ∈ markup.parts text, Legible part := by
  intro part member
  cases part with
  | plain c => exact bracketsInTags c member
  | tagged tag =>
      obtain ⟨form, source, place, rest, length, rfl, recognised, rfl⟩ :=
        BlockMarkup.exists_recognised_of_mem_parts member
      obtain ⟨written, after, tagText, rfl, rfl⟩ :=
        (@recognise_eq_some_iff place _ _ _).mp recognised
      refine ⟨form.argument, ?_, ?_⟩
      · simpa [BlockMarkup.tagOf] using tagText
      · simp [BlockMarkup.tagOf, Tag.unplaced]

theorem legible_placed (start : Nat) {parts : List Part} (legible : ∀ part ∈ parts, Legible part) :
    ∀ part ∈ Part.placed start parts, Legible part := by
  induction parts generalizing start with
  | nil => simp [Part.placed]
  | cons part parts ih =>
      have later {next : Nat} := ih next fun other member => legible other (by simp [member])
      intro other member
      cases part with
      | plain c =>
          rcases List.mem_cons.mp member with rfl | member
          · exact legible (.plain c) (by simp)
          · exact later other member
      | tagged tag =>
          rcases List.mem_cons.mp member with rfl | member
          · exact legible (.tagged tag) (by simp)
          · exact later other member

section Legible

variable (bracketsInTags : ∀ c, .plain c ∈ markup.parts text → isBracket c = false)
  (enough : ((markup.tags text).length : Int) ≤ passes)
include bracketsInTags

theorem inOrder_parts : InOrder (Part.placed 0 (markup.parts text)) := by
  refine (inOrder_placed 0 ?_).1
  intro tag member
  obtain ⟨argument, tagText, -⟩ := legible_parts bracketsInTags _ (mem_tagsIn.mp member)
  exact tagText.ne_nil

include enough

theorem finished_trace : (trace context passes text).finished = true := by
  apply Trace.finished_of_length_le (exchange_shrinks context) (inOrder_parts bracketsInTags)
  rw [Part.tagsIn_placed, ← BlockMarkup.tags_eq_placedTags]
  omega

theorem strip_eq_trace (mayHold : mayHoldTags text = true) :
    strip context passes text =
      { text := BlankLines.collapse (Part.written (trace context passes text).left)
        problems := (trace context passes text).problems } := by
  have legible := legible_placed 0 (legible_parts bracketsInTags)
  have reduced := (exchange_simulates context).reduce_written passes.toNat [] legible
  rw [Part.written_placed, BlockMarkup.written_parts, ← trace] at reduced
  have finished := @finished_trace context passes text bracketsInTags enough
  rw [strip, if_pos mayHold, reduced]
  simp [Trace.reduced, finished]

end Legible

theorem tagsIn_placed_parts (text : Text) :
    tagsIn (Part.placed 0 (markup.parts text)) = markup.tags text := by
  rw [Part.tagsIn_placed, ← BlockMarkup.tags_eq_placedTags]

theorem faultsOf_placed_parts (text : Text) :
    faultsOf (Part.placed 0 (markup.parts text)) = (markup.scan text).faults := by
  rw [faultsOf, Part.placedTags_placed, ← BlockMarkup.tags_eq_placedTags]
  rfl

theorem legible_of_mem_tags
    (bracketsInTags : ∀ c, .plain c ∈ markup.parts text → isBracket c = false) {tag : Tag}
    (member : tag ∈ markup.tags text) : Legible (.tagged tag) := by
  rw [← tagsIn_placed_parts] at member
  exact legible_placed 0 (legible_parts bracketsInTags) _ (mem_tagsIn.mp member)

theorem mayHoldTags_of_mem_tags
    (bracketsInTags : ∀ c, .plain c ∈ markup.parts text → isBracket c = false) {tag : Tag}
    (member : tag ∈ markup.tags text) : mayHoldTags text = true := by
  obtain ⟨body, -, source⟩ := (legible_of_mem_tags bracketsInTags member).isBracketed
  rw [← tagsIn_placed_parts, mem_tagsIn] at member
  obtain ⟨before, after, split⟩ := List.append_of_mem member
  have whole := congrArg Part.written split
  rw [Part.written_placed, BlockMarkup.written_parts, Part.written_append, Part.written_cons,
    Part.source, source] at whole
  rw [whole]
  exact mayHoldTags_append _ _

section Paired

variable {layers : Layers} (matched : layers.Matched none)
  (written : layers.parts = Part.placed 0 (markup.parts text))
include matched written

theorem pairing_of_layers :
    pairing [] (markup.tags text) = ⟨layers.pairs, layers.strays [], layers.unclosed []⟩ := by
  rw [← tagsIn_placed_parts, ← written]
  exact @Layers.pairing_parts layers [] matched

theorem mem_faults_iff {fault : MarkupFault} :
    fault ∈ (markup.scan text).faults ↔ (∃ stray ∈ layers.strays [], strayFault stray = fault) ∨
      ∃ tag ∈ layers.unclosed [], .unclosed tag = fault := by
  have faults : (markup.scan text).faults = (pairing [] (markup.tags text)).faults :=
    faults_pairTags [] _
  rw [faults, pairing_of_layers matched written]
  simp [Pairing.faults]

end Paired

theorem tag_mem_tags {fault : MarkupFault} (member : fault ∈ (markup.scan text).faults) :
    fault.tag ∈ markup.tags text := by
  obtain ⟨layers, matched, written⟩ := Layers.exists_matched (Part.placed 0 (markup.parts text))
  rw [← tagsIn_placed_parts, ← written]
  rcases (mem_faults_iff matched written).mp member with ⟨stray, isStray, rfl⟩ | ⟨tag, isUnclosed, rfl⟩
  · rw [tag_strayFault]
    exact Layers.mem_tagsIn_of_stray isStray
  · exact Layers.mem_tagsIn_of_unclosed isUnclosed

/-- Texts with brackets in tags only, in which no two tags without a partner are written alike, and
as many passes as the text has tags. -/
structure Admissible (passes : Int) (text : Text) : Prop where
  bracketsInTags : ∀ c, .plain c ∈ markup.parts text → isBracket c = false
  differ : ((markup.scan text).faults.map fun fault => fault.tag.source).Nodup
  enough : ((markup.tags text).length : Int) ≤ passes

namespace Admissible

variable (admissible : Admissible passes text)
include admissible

theorem problems_strip (context : ContextMap) :
    (strip context passes text).problems = (trace context passes text).problems := by
  by_cases mayHold : mayHoldTags text = true
  · rw [strip_eq_trace admissible.bracketsInTags admissible.enough mayHold]
  · have noTags : markup.tags text = [] := by
      by_contra hasTags
      obtain ⟨tag, tags, tagsAre⟩ := List.exists_cons_of_ne_nil hasTags
      exact mayHold (mayHoldTags_of_mem_tags admissible.bracketsInTags
        (show tag ∈ markup.tags text by simp [tagsAre]))
    have noFaults : faultsOf (Part.placed 0 (markup.parts text)) = [] := by
      rw [faultsOf_placed_parts, BlockMarkup.scan, noTags]
      rfl
    have noSpans : spans (Part.placed 0 (markup.parts text)) = [] := by
      by_contra hasSpans
      have fewer := Trace.length_tagsIn_pass_lt (exchange_shrinks context)
        (inOrder_parts admissible.bracketsInTags) hasSpans
      rw [tagsIn_placed_parts, noTags] at fewer
      simp at fewer
    rw [strip, if_neg mayHold, trace, Trace.run_of_no_spans _ _ _ _ noSpans, noFaults]
    rfl

theorem eq_of_source_eq {fault other : MarkupFault} (member : fault ∈ (markup.scan text).faults)
    (otherMember : other ∈ (markup.scan text).faults)
    (same : fault.tag.source = other.tag.source) : fault = other :=
  List.inj_on_of_nodup_map admissible.differ member otherMember same

theorem isBracketed {tag : Tag} (member : tag ∈ markup.tags text) : IsBracketed tag.source :=
  (legible_of_mem_tags admissible.bracketsInTags member).isBracketed

theorem alike (context : ContextMap) : Alike (keeps context) (markup.tags text) := by
  intro tag member other otherMember same
  have sameTag := (legible_of_mem_tags admissible.bracketsInTags member).unplaced_eq
    (legible_of_mem_tags admissible.bracketsInTags otherMember) same
  have sameKey : tag.unplaced.key = other.unplaced.key := by rw [sameTag]
  have sameArgument : tag.unplaced.argument = other.unplaced.argument := by rw [sameTag]
  exact ⟨sameKey, congrArg (test context) sameArgument⟩

theorem text_strip {tag : Tag} (member : tag ∈ markup.tags text) (context : ContextMap) :
    (strip context passes text).text =
      BlankLines.collapse (Part.written (trace context passes text).left) := by
  rw [strip_eq_trace admissible.bracketsInTags admissible.enough
    (mayHoldTags_of_mem_tags admissible.bracketsInTags member)]

/-- A tag that is left stands in the result as it was written, unless it has a long run of line
breaks inside. -/
theorem remains_of_mem_left {tag : Tag} (member : tag ∈ markup.tags text)
    (isLeft : tag ∈ tagsIn (trace context passes text).left)
    (unchanged : BlankLines.collapse tag.source = tag.source) :
    Remains context passes text tag := by
  obtain ⟨before, after, split⟩ := List.append_of_mem (mem_tagsIn.mp isLeft)
  refine ⟨before, after, split, ?_⟩
  rw [admissible.text_strip member, split, Part.written_append, Part.written_cons, Part.source,
    (admissible.isBracketed member).collapse_append, unchanged]

theorem unchanged_of_remains {tag : Tag} (member : tag ∈ markup.tags text)
    (remains : Remains context passes text tag) :
    BlankLines.collapse tag.source = tag.source := by
  obtain ⟨before, after, split, result⟩ := remains
  rw [admissible.text_strip member, split, Part.written_append, Part.written_cons, Part.source,
    (admissible.isBracketed member).collapse_append] at result
  exact List.append_cancel_right (List.append_cancel_left result)

theorem not_isLeftOut_of_mem_left {tag : Tag}
    (isLeft : tag ∈ tagsIn (trace context passes text).left) :
    ¬ IsLeftOut context passes text tag := by
  rintro ⟨span, taken, inside, isFalse⟩
  have dropped : tagsIn (exchange context span.opening span.content) = [] := by
    rw [exchange_keepsTags, keeps, isFalse]
    rfl
  exact Trace.not_mem_left (exchange_shrinks context) (inOrder_parts admissible.bracketsInTags) taken
    (by simp [Span.parts, inside]) (by simp [dropped]) isLeft

theorem nodup_messages : ((markup.scan text).faults.map MarkupFault.message).Nodup := by
  refine List.Nodup.map_on ?_ (List.Nodup.of_map _ admissible.differ)
  intro fault member other otherMember same
  have sources := MarkupFault.sources_of_message_eq (admissible.isBracketed (tag_mem_tags member))
    (admissible.isBracketed (tag_mem_tags otherMember)) same
  exact admissible.eq_of_source_eq member otherMember sources.1

/-- If the messages of the text are all that is reported, then they name one open tag only for every
stray. -/
theorem namesOne_messages :
    Layers.NamesOne (markup.tags text) ((markup.scan text).faults.map MarkupFault.message) := by
  intro tag present path other first second
  obtain ⟨fault, member, same⟩ := List.mem_map.mp first
  obtain ⟨otherFault, otherMember, otherSame⟩ := List.mem_map.mp second
  have bracketed := admissible.isBracketed present
  have sources := MarkupFault.sources_of_message_eq (admissible.isBracketed (tag_mem_tags member))
    (by simpa using bracketed) same
  have otherSources := MarkupFault.sources_of_message_eq
    (admissible.isBracketed (tag_mem_tags otherMember)) (by simpa using bracketed) otherSame
  rw [MarkupFault.innermost?_strayFault, tag_strayFault] at sources otherSources
  obtain rfl := admissible.eq_of_source_eq member otherMember
    (sources.1.trans otherSources.1.symm)
  exact sources.2.symm.trans otherSources.2

/-- The layers of a text are steady if its strays stand in settled surroundings. -/
theorem steady {layers : Layers} (matched : layers.Matched none)
    (written : layers.parts = Part.placed 0 (markup.parts text))
    (settles : ∀ stray ∈ layers.strays [],
      IsDropped (keeps context) (layers.unclosed []) stray.2 ∨
        Uniform (layers.unclosed []) stray.2) : Layers.Steady (keeps context) layers where
  matched := matched
  inOrder := by
    rw [written]
    exact inOrder_parts admissible.bracketsInTags
  alike := by
    rw [written, tagsIn_placed_parts]
    exact admissible.alike context
  settles := settles

theorem pairedOnce_of_straysSettle (settle : StraysSettle context text) :
    PairedOnce context passes text := by
  obtain ⟨layers, matched, written⟩ := Layers.exists_matched (Part.placed 0 (markup.parts text))
  have paired := pairing_of_layers matched written
  have keepsTags := exchange_keepsTags context
  have shrinks := exchange_shrinks context
  have finished := @finished_trace context passes text admissible.bracketsInTags admissible.enough
  obtain ⟨strays, unclosed⟩ := settle
  rw [paired] at strays unclosed
  have steady := admissible.steady matched written fun stray member =>
    (strays stray member).imp_right And.left
  refine ⟨?_, ?_, ?_⟩
  · rw [admissible.problems_strip, trace, steady.problems_run keepsTags shrinks written,
      faultsOf_placed_parts]
    exact addProblems_of_nodup (by simpa using admissible.nodup_messages)
  · intro fault member
    have isTag := tag_mem_tags member
    rcases (mem_faults_iff matched written).mp member with
      ⟨⟨tag, path⟩, isStray, rfl⟩ | ⟨tag, isUnclosed, rfl⟩
    · rw [tag_strayFault] at isTag ⊢
      by_cases dropped : IsDropped (keeps context) (layers.unclosed []) path
      · exact .inr (steady.dropped_of_isDropped keepsTags shrinks written finished isStray dropped)
      · obtain ⟨uniform, unchanged⟩ := (strays _ isStray).resolve_left dropped
        have isLeft : tag ∈ tagsIn (trace context passes text).left :=
          steady.mem_left_of_uniform keepsTags shrinks written isStray uniform dropped
        exact .inl (admissible.remains_of_mem_left isTag isLeft unchanged)
    · have isLeft : tag ∈ tagsIn (trace context passes text).left :=
        steady.mem_left_of_unclosed keepsTags shrinks written isUnclosed
      exact .inl (admissible.remains_of_mem_left isTag isLeft (unclosed tag isUnclosed))
  · intro pair
    rw [paired]
    exact steady.mem_pairs_iff_consumed keepsTags shrinks written finished

theorem unchanged_of_kept
    (kept : ∀ fault ∈ (markup.scan text).faults,
      Remains context passes text fault.tag ∨ IsLeftOut context passes text fault.tag)
    {fault : MarkupFault} (member : fault ∈ (markup.scan text).faults)
    (isLeft : fault.tag ∈ tagsIn (trace context passes text).left) :
    BlankLines.collapse fault.tag.source = fault.tag.source :=
  admissible.unchanged_of_remains (tag_mem_tags member)
    ((kept fault member).resolve_right (admissible.not_isLeftOut_of_mem_left isLeft))

theorem straysSettle_of_pairedOnce (once : PairedOnce context passes text) :
    StraysSettle context text := by
  obtain ⟨layers, matched, written⟩ := Layers.exists_matched (Part.placed 0 (markup.parts text))
  have paired := pairing_of_layers matched written
  have keepsTags := exchange_keepsTags context
  have shrinks := exchange_shrinks context
  have finished := @finished_trace context passes text admissible.bracketsInTags admissible.enough
  obtain ⟨reported, kept, consumed⟩ := once
  rw [admissible.problems_strip] at reported
  rw [paired] at consumed
  have namesOne : Layers.NamesOne (tagsIn layers.parts) (trace context passes text).problems := by
    rw [written, tagsIn_placed_parts, reported]
    exact admissible.namesOne_messages
  have inOrder : InOrder layers.parts := by
    rw [written]
    exact inOrder_parts admissible.bracketsInTags
  have alike : Alike (keeps context) (tagsIn layers.parts) := by
    rw [written, tagsIn_placed_parts]
    exact admissible.alike context
  have surroundings {tag : Tag} {path : List Tag} (stray : (tag, path) ∈ layers.strays []) :=
    Layers.uniform_of_consumed keepsTags shrinks matched inOrder alike written finished consumed
      namesOne stray
  have steady := admissible.steady matched written fun _ stray =>
    (surroundings stray).imp_right And.left
  rw [StraysSettle, paired]
  constructor
  · intro stray member
    have isFault := (mem_faults_iff matched written).mpr (.inl ⟨stray, member, rfl⟩)
    rcases surroundings member with dropped | ⟨uniform, isLeft⟩
    · exact .inl dropped
    · rw [← tag_strayFault stray] at isLeft ⊢
      exact .inr ⟨uniform, admissible.unchanged_of_kept kept isFault isLeft⟩
  · intro tag isUnclosed
    have isFault := (mem_faults_iff matched written).mpr (.inr ⟨tag, isUnclosed, rfl⟩)
    exact admissible.unchanged_of_kept kept isFault
      (steady.mem_left_of_unclosed keepsTags shrinks written isUnclosed)

end Admissible

/-- Whether a text is admissible can be computed. -/
def isAdmissible (passes : Int) (text : Text) : Bool :=
  (markup.parts text).all (fun
    | .plain c => !isBracket c
    | .tagged _ => true) &&
  decide (((markup.scan text).faults.map fun fault => fault.tag.source).Nodup) &&
  decide (((markup.tags text).length : Int) ≤ passes)

theorem admissible_of_isAdmissible (computed : isAdmissible passes text = true) :
    Admissible passes text := by
  simp only [isAdmissible, Bool.and_eq_true, List.all_eq_true, decide_eq_true_eq] at computed
  obtain ⟨⟨inTags, differ⟩, enough⟩ := computed
  exact ⟨fun c member => by simpa using inTags _ member, differ, enough⟩

/-- The passes of stripping are the run over the parts of the text, and in it the pairing of the
tags is decided once if and only if the strays of the text settle. -/
theorem strip_pairs_once_iff (context : ContextMap) {passes : Int} {text : Text}
    (admissible : Admissible passes text) :
    (mayHoldTags text = true → strip context passes text =
      { text := BlankLines.collapse (Part.written (trace context passes text).left)
        problems := (trace context passes text).problems }) ∧
      (PairedOnce context passes text ↔ StraysSettle context text) :=
  ⟨strip_eq_trace admissible.bracketsInTags admissible.enough,
    admissible.straysSettle_of_pairedOnce, admissible.pairedOnce_of_straysSettle⟩

def kidsContext : ContextMap := ContextMap.insert {} "Kids" "2"

/-- A stray that moves from a block into a tag of the same text that is never closed, and one that
is left out with the block around it. -/
def settledText : Text :=
  "[[IF:Kids]]a[[IF:Kids]]b[[ENDIF:Home]]c[[ENDIF:Kids]]d[[IF:!Kids]]e[[ENDIF:Pets]][[ENDIF:Kids]]"

theorem strip_pairs_settledText_once :
    Admissible 7 settledText ∧ StraysSettle kidsContext settledText ∧
      PairedOnce kidsContext 7 settledText := by
  have admissible : Admissible 7 settledText := admissible_of_isAdmissible (by decide +kernel)
  have settle : StraysSettle kidsContext settledText := by decide +kernel
  exact ⟨admissible, settle, (strip_pairs_once_iff kidsContext admissible).2.mpr settle⟩

/-- Two tests that hold, and a closing tag of the outer block inside the inner one. -/
def crossedText : Text := "[[IF:Kids]][[IF:Home]][[ENDIF:Kids]][[ENDIF:Home]]x[[ENDIF:Kids]]"

def crossedContext : ContextMap := ContextMap.insert kidsContext "Home" "yes"

/-- The stray comes to close the outer block, and the tag that closed it at first is reported. -/
theorem strip_pairs_crossedText_twice :
    Admissible 5 crossedText ∧ strip crossedContext 5 crossedText =
      { text := "x[[ENDIF:Kids]]"
        problems := ["Closing tag [[ENDIF:Kids]] does not match [[IF:Home]]",
          "Closing tag [[ENDIF:Kids]] has no opening tag"] } ∧
      ¬ PairedOnce crossedContext 5 crossedText := by
  have admissible : Admissible 5 crossedText := admissible_of_isAdmissible (by decide +kernel)
  have stripped : strip crossedContext 5 crossedText =
      { text := "x[[ENDIF:Kids]]"
        problems := ["Closing tag [[ENDIF:Kids]] does not match [[IF:Home]]",
          "Closing tag [[ENDIF:Kids]] has no opening tag"] } := by
    rfl
  refine ⟨admissible, stripped, ?_⟩
  intro once
  have oneFault : (markup.scan crossedText).faults.length = 1 := by decide +kernel
  have reported := congrArg List.length once.reported
  rw [List.length_map, oneFault, stripped] at reported
  simp at reported

end Covenant.Conditional
