import Covenant.Proofs.Outcome
import Covenant.Proofs.Template.Placed

/-!
# Where blocks stand

The tags that a scan finds stand in the text one behind the other, and so do the innermost blocks
that it reports.  Exchanging them therefore goes through the text once, from front to back.
`BlockMarkup.Meets` says which blocks are exchanged in repeated passes, in which texts, and for what.
-/

namespace Covenant

namespace Text

variable {text : Text} {start stop : Nat}

theorem drop_eq_slice_append (inOrder : start ≤ stop) :
    text.drop start = slice start stop text ++ text.drop stop := by
  have divided := List.take_append_drop (stop - start) (text.drop start)
  rw [List.drop_drop, Nat.add_sub_cancel' inOrder] at divided
  exact divided.symm

theorem take_eq_append_slice (inOrder : start ≤ stop) :
    text.take stop = text.take start ++ slice start stop text := by
  rw [slice, ← List.take_add, Nat.add_sub_cancel' inOrder]

end Text

variable {text : Text}

/-! ### Tags -/

/-- A tag stands in a text at its place. -/
def Tag.StandsIn (tag : Tag) (text : Text) : Prop :=
  ∃ front rest, text = front ++ (tag.source ++ rest) ∧ tag.start = front.length

/-- One tag ends where the other begins, or before. -/
def Tag.EndsBefore (tag other : Tag) : Prop := tag.stop ≤ other.start

theorem standsIn_placedTags (parts : List Part) (front : Text)
    (whole : text = front ++ Part.written parts) :
    (Part.placedTags front.length parts).Pairwise Tag.EndsBefore ∧
      ∀ tag ∈ Part.placedTags front.length parts, front.length ≤ tag.start ∧ tag.StandsIn text := by
  induction parts generalizing front with
  | nil => exact ⟨.nil, nofun⟩
  | cons part parts ih =>
      cases part with
      | plain c =>
          obtain ⟨inOrder, stand⟩ := ih (front ++ [c]) (by simpa [Part.source] using whole)
          rw [List.length_append, List.length_singleton] at inOrder stand
          refine ⟨inOrder, fun tag member => ?_⟩
          obtain ⟨behind, standsIn⟩ := stand tag member
          exact ⟨by omega, standsIn⟩
      | tagged tag =>
          obtain ⟨inOrder, stand⟩ := ih (front ++ tag.source) (by simpa [Part.source] using whole)
          rw [List.length_append] at inOrder stand
          refine ⟨List.pairwise_cons.mpr ⟨fun other member => (stand other member).1, inOrder⟩, ?_⟩
          intro other member
          rcases List.mem_cons.mp member with rfl | later
          · exact ⟨Nat.le_refl _, front, Part.written parts, whole, rfl⟩
          · obtain ⟨behind, standsIn⟩ := stand other later
            exact ⟨by omega, standsIn⟩

theorem BlockMarkup.standsIn_tags (markup : BlockMarkup) (text : Text) :
    (markup.tags text).Pairwise Tag.EndsBefore ∧ ∀ tag ∈ markup.tags text, tag.StandsIn text := by
  rw [tags_eq_placedTags]
  obtain ⟨inOrder, stand⟩ := standsIn_placedTags (markup.parts text) [] (markup.written_parts text).symm
  exact ⟨inOrder, fun tag member => (stand tag member).2⟩

/-- Every tag was recognised somewhere. -/
theorem BlockMarkup.exists_recognised_of_mem_tags {markup : BlockMarkup} {tag : Tag}
    (member : tag ∈ markup.tags text) :
    ∃ form place rest length, markup.recognise place rest = some (form, length) ∧
      tag.source = rest.take length := by
  have placed (start : Nat) (parts : List Part) {tag : Tag} (member : tag ∈ Part.placedTags start parts) :
      ∃ other, .tagged other ∈ parts ∧ other.source = tag.source := by
    fun_induction Part.placedTags start parts with
    | case1 start => cases member
    | case2 start c parts ih =>
        obtain ⟨other, inParts, same⟩ := ih member
        exact ⟨other, List.mem_cons_of_mem _ inParts, same⟩
    | case3 start other parts ih =>
        rcases List.mem_cons.mp member with rfl | later
        · exact ⟨other, List.mem_cons_self, rfl⟩
        · obtain ⟨another, inParts, same⟩ := ih later
          exact ⟨another, List.mem_cons_of_mem _ inParts, same⟩
  rw [tags_eq_placedTags] at member
  obtain ⟨other, inParts, same⟩ := placed 0 _ member
  obtain ⟨form, source, place, rest, length, rfl, recognised, isSource⟩ :=
    exists_recognised_of_mem_parts inParts
  exact ⟨form, place, rest, length, recognised, same.symm.trans isSource⟩

/-! ### Blocks -/

/-- Blocks that stand one behind the other from a place on, between tags with a property. -/
inductive InRow (Holds : Tag → Prop) : Nat → List Block → Prop
  | nil {cursor : Nat} : InRow Holds cursor []
  | cons {cursor : Nat} {block : Block} {blocks : List Block} (reached : cursor ≤ block.start)
      (opening : Holds block.opening) (closing : Holds block.closing)
      (inOrder : block.opening.EndsBefore block.closing) (later : InRow Holds block.stop blocks) :
      InRow Holds cursor (block :: blocks)

theorem InRow.mono {Holds Other : Tag → Prop} {cursor : Nat} {blocks : List Block}
    (row : InRow Holds cursor blocks) (implies : ∀ tag, Holds tag → Other tag) :
    InRow Other cursor blocks := by
  induction row with
  | nil => exact .nil
  | cons reached opening closing inOrder later ih =>
      exact .cons reached (implies _ opening) (implies _ closing) inOrder ih

/-- The open tags stand in front of those to come.  Only the innermost can begin a block still, and it
does so behind the blocks that have been reported. -/
structure Waits (Holds : Tag → Prop) (cursor : Nat) (waiting : List OpenTag) (tags : List Tag) : Prop where
  holds : ∀ opened ∈ waiting, Holds opened.tag
  behind : ∀ opened ∈ waiting, opened.hasInner = false → cursor ≤ opened.tag.start
  before : ∀ opened ∈ waiting, ∀ tag ∈ tags, opened.tag.EndsBefore tag
  outer : ∀ opened ∈ waiting.tail, opened.hasInner = true

namespace Waits

variable {Holds : Tag → Prop} {cursor : Nat} {waiting : List OpenTag} {tag : Tag} {tags : List Tag}

theorem later (waits : Waits Holds cursor waiting (tag :: tags)) : Waits Holds cursor waiting tags where
  holds := waits.holds
  behind := waits.behind
  before opened member other isLater := waits.before opened member other (List.mem_cons_of_mem tag isLater)
  outer := waits.outer

theorem pop {innermost : OpenTag} (waits : Waits Holds cursor (innermost :: waiting) tags) (place : Nat) :
    Waits Holds place waiting tags where
  holds opened member := waits.holds opened (List.mem_cons_of_mem innermost member)
  behind opened member fresh := by
    rw [waits.outer opened member] at fresh
    cases fresh
  before opened member := waits.before opened (List.mem_cons_of_mem innermost member)
  outer opened member := waits.outer opened (List.mem_of_mem_tail member)

theorem push (waits : Waits Holds cursor waiting (tag :: tags)) (own : Holds tag)
    (reached : cursor ≤ tag.start) (inOrder : ∀ other ∈ tags, tag.EndsBefore other) :
    Waits Holds cursor (pushOpen tag waiting) tags := by
  cases waiting with
  | nil =>
      exact ⟨by simpa [pushOpen] using own, by simpa [pushOpen] using reached,
        by simpa [pushOpen] using inOrder, by simp [pushOpen]⟩
  | cons innermost waiting =>
      have isLater := waits.later
      obtain ⟨holds, holdsRest⟩ := List.forall_mem_cons.mp waits.holds
      obtain ⟨before, beforeRest⟩ := List.forall_mem_cons.mp isLater.before
      have touched : ∀ opened ∈ waiting, opened.hasInner = true := waits.outer
      refine ⟨?_, ?_, ?_, ?_⟩
      · simpa [pushOpen, own, holds] using holdsRest
      · simpa [pushOpen, reached] using fun opened member fresh =>
          absurd (touched opened member) (by simp [fresh])
      · simpa [pushOpen] using ⟨inOrder, before, beforeRest⟩
      · simpa [pushOpen] using touched

end Waits

/-- The blocks that a scan reports stand in a row. -/
theorem inRow_pairTags {Holds : Tag → Prop} {tags : List Tag} {cursor : Nat} {waiting : List OpenTag}
    (holds : ∀ tag ∈ tags, Holds tag ∧ cursor ≤ tag.start) (inOrder : tags.Pairwise Tag.EndsBefore)
    (waits : Waits Holds cursor waiting tags) : InRow Holds cursor (pairTags waiting tags).blocks := by
  induction tags generalizing cursor waiting with
  | nil => exact .nil
  | cons tag tags ih =>
      obtain ⟨⟨own, reached⟩, holdsLater⟩ := List.forall_mem_cons.mp holds
      obtain ⟨before, inOrderLater⟩ := List.pairwise_cons.mp inOrder
      by_cases isOpen : tag.isOpen = true
      · rw [pairTags.eq_def]
        dsimp only
        rw [if_pos isOpen]
        exact ih holdsLater inOrderLater (waits.push own reached before)
      · cases waiting with
        | nil =>
            rw [pairTags, if_neg isOpen]
            exact ih holdsLater inOrderLater waits.later
        | cons innermost rest =>
            rw [pairTags, if_neg isOpen]
            dsimp only
            split
            · split
              · exact ih holdsLater inOrderLater (waits.later.pop cursor)
              · rename_i fresh
                have isFresh : innermost.hasInner = false := by simpa using fresh
                refine .cons (waits.behind innermost List.mem_cons_self isFresh)
                  (waits.holds innermost List.mem_cons_self) own
                  (waits.before innermost List.mem_cons_self tag List.mem_cons_self) ?_
                exact ih (fun other member => ⟨(holdsLater other member).1, before other member⟩)
                  inOrderLater (waits.later.pop _)
            · exact ih holdsLater inOrderLater waits.later

theorem BlockMarkup.inRow_scan (markup : BlockMarkup) (text : Text) :
    InRow (· ∈ markup.tags text) 0 (markup.scan text).blocks :=
  inRow_pairTags (fun _ member => ⟨member, Nat.zero_le _⟩) (markup.standsIn_tags text).1
    ⟨nofun, nofun, nofun, nofun⟩

namespace Block

/-- A block with its tags, as it is written. -/
def source (block : Block) (text : Text) : Text :=
  block.opening.source ++ (block.inner text ++ block.closing.source)

/-- A block in its text. -/
theorem take_and_drop {block : Block} (opens : block.opening.StandsIn text)
    (closes : block.closing.StandsIn text) (inOrder : block.opening.EndsBefore block.closing) :
    text.drop block.start = block.source text ++ text.drop block.stop ∧
      text.take block.stop = text.take block.start ++ block.source text := by
  obtain ⟨front, behind, whole, starts⟩ := opens
  obtain ⟨before, rest, isClosed, stops⟩ := closes
  have shorter : (front ++ block.opening.source).length ≤ before.length := by
    rw [List.length_append, ← starts, ← stops]
    exact inOrder
  obtain ⟨inner, rfl⟩ : front ++ block.opening.source <+: before :=
    List.prefix_of_prefix_length_le ⟨behind, by simp [whole]⟩ ⟨_, isClosed.symm⟩ shorter
  have isInner : block.inner text = inner := by
    have middle := Text.slice_middle (front ++ block.opening.source) inner (block.closing.source ++ rest)
    have opened : block.opening.stop = (front ++ block.opening.source).length := by
      rw [Tag.stop, starts, List.length_append]
    have closed : block.closing.start = (front ++ block.opening.source).length + inner.length := by
      rw [stops, List.length_append]
    rw [Block.inner, opened, closed, isClosed, List.append_assoc _ inner]
    exact middle
  have inText : text = front ++ (block.source text ++ rest) := by
    rw [source, isInner, isClosed]
    simp
  have stop : block.stop = (front ++ block.source text).length := by
    rw [Block.stop, Tag.stop, stops, source, isInner]
    simp [Nat.add_assoc]
  have upTo : text.take block.stop = front ++ block.source text := by
    conv_lhs => rw [inText]
    rw [← List.append_assoc, stop, List.take_left]
  have beyond : text.drop block.stop = rest := by
    conv_lhs => rw [inText]
    rw [← List.append_assoc, stop, List.drop_left]
  have inFront : text.take block.start = front := by
    rw [Block.start, starts, whole, List.take_left]
  rw [upTo, beyond, inFront]
  refine ⟨?_, rfl⟩
  conv_lhs => rw [inText]
  rw [Block.start, starts, List.drop_left]

end Block

/-! ### Passes -/

namespace BlockMarkup

/-- A block that is exchanged in one of at most so many passes over a text, in the text that is left
then, and what it is exchanged for. -/
inductive Meets (markup : BlockMarkup) (render : Text → Text → Outcome Text) :
    Nat → Text → Text → Block → Text → Prop
  | now {passes : Nat} {text : Text} {block : Block} {result : Text}
      (found : block ∈ (markup.scan text).blocks)
      (rendered : render block.opening.argument (block.inner text) = .ok result) :
      Meets markup render (passes + 1) text text block result
  | later {passes : Nat} {text next stage : Text} {block : Block} {result : Text}
      (replaced : replaceBlocks render text (markup.scan text).blocks = .ok next)
      (met : Meets markup render passes next stage block result) :
      Meets markup render (passes + 1) text stage block result

namespace Meets

variable {markup : BlockMarkup} {render : Text → Text → Outcome Text} {passes : Nat} {text stage : Text}
  {block : Block} {result : Text}

theorem blocks_ne_nil (met : markup.Meets render passes text stage block result) :
    (markup.scan text).blocks ≠ [] := by
  induction met with
  | now found rendered => exact List.ne_nil_of_mem found
  | @later passes text next stage block result replaced met ih =>
      intro none
      rw [none] at replaced
      obtain rfl : text = next := Except.ok.inj replaced
      exact ih none

/-- When no block is left after one pass, only those of that pass are exchanged. -/
theorem of_onePass (met : markup.Meets render passes text stage block result)
    (onePass : ∀ next, replaceBlocks render text (markup.scan text).blocks = .ok next →
      (markup.scan next).blocks = []) :
    stage = text ∧ block ∈ (markup.scan text).blocks ∧
      render block.opening.argument (block.inner text) = .ok result := by
  cases met with
  | now found rendered => exact ⟨rfl, found, rendered⟩
  | later replaced met => exact absurd (onePass _ replaced) met.blocks_ne_nil

end Meets

end BlockMarkup

end Covenant
