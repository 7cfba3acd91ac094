import Covenant.Proofs.Template.BlockScan
import Covenant.Proofs.Template.Untagged
import Mathlib.Logic.Relation
import Mathlib.Order.WellFounded

/-!
# Passes come to an end

The number of tags does not go down from pass to pass: when a block is gone, what stood around it may
make up a new tag.  But each block loses its two tags and is exchanged for nothing longer than its
content, so a pass over a text with a block makes the text shorter.  Passes therefore come to an end
without any bound, and a bound that is no less than the length of the text is never met.
-/

namespace Covenant

/-! ### One pass -/

/-- A rendering that makes no content longer. -/
def NeverLengthens (render : Text → Text → Text) : Prop :=
  ∀ argument content, (render argument content).length ≤ content.length

theorem Text.length_trim_le (text : Text) : (trim text).length ≤ text.length := by
  rw [trim_eq]
  exact (List.rdropWhile_prefix _ _).length_le.trans (List.dropWhile_sublist _).length_le

/-- A tag that is written in a text. -/
def Tag.IsWrittenIn (text : Text) (tag : Tag) : Prop := tag.StandsIn text ∧ tag.source ≠ []

theorem Found.token_mem_of_mem_ofPieces {α : Type} {found : Found α} {start : Nat}
    {pieces : List (Piece α)} (member : found ∈ ofPieces start pieces) :
    .token found.token found.source ∈ pieces := by
  fun_induction ofPieces start pieces with
  | case1 start => cases member
  | case2 start c pieces ih => exact List.mem_cons_of_mem _ (ih member)
  | case3 start token source pieces ih =>
      rcases List.mem_cons.mp member with rfl | later
      · exact List.mem_cons_self
      · exact List.mem_cons_of_mem _ (ih later)

theorem BlockMarkup.isWrittenIn_of_mem_tags {markup : BlockMarkup} {text : Text} {tag : Tag}
    (member : tag ∈ markup.tags text) : tag.IsWrittenIn text := by
  refine ⟨(markup.standsIn_tags text).2 tag member, ?_⟩
  obtain ⟨found, isFound, rfl⟩ := List.mem_map.mp member
  exact Piece.source_ne_nil_of_mem none 0 text (Found.token_mem_of_mem_ofPieces isFound)

theorem Block.length_inner_lt {block : Block} {text : Text} (opens : block.opening.source ≠ []) :
    (block.inner text).length < (block.source text).length := by
  have filled := List.length_pos_of_ne_nil opens
  simp only [source, List.length_append]
  omega

/-- Each block in a row gives up a character at least. -/
theorem InRow.length_replaceBlocksFrom {text : Text} {rendered : Block → Text}
    (shorter : ∀ block, (rendered block).length ≤ (block.inner text).length) {cursor : Nat}
    {blocks : List Block} (row : InRow (·.IsWrittenIn text) cursor blocks) :
    (Id.run (replaceBlocksFrom text (fun block => pure (rendered block)) cursor blocks)).length +
      blocks.length ≤ (text.drop cursor).length := by
  induction row with
  | nil => exact Nat.le_refl _
  | @cons cursor block blocks reached opening closing inOrder later ih =>
      have divided : text.drop cursor = Text.slice cursor block.start text ++
          (block.source text ++ text.drop block.stop) := by
        rw [Text.drop_eq_slice_append reached, (Block.take_and_drop opening.1 closing.1 inOrder).1]
      have own := (shorter block).trans_lt (Block.length_inner_lt opening.2)
      change (Text.slice cursor block.start text ++ rendered block ++
        Id.run (replaceBlocksFrom text (fun block => pure (rendered block)) block.stop blocks)).length +
          (blocks.length + 1) ≤ _
      rw [divided]
      simp only [List.length_append]
      omega

namespace BlockMarkup

variable (markup : BlockMarkup) (render : Text → Text → Text)

/-- What a pass makes of a text. -/
def exchanged (text : Text) : Text :=
  Id.run (replaceBlocks (fun argument inner => pure (render argument inner)) text (markup.scan text).blocks)

/-- A pass leads from a text with a block to the text that is left. -/
def LeadsTo (text next : Text) : Prop :=
  (markup.scan text).blocks ≠ [] ∧ next = markup.exchanged render text

/-- A pass takes a character at least for each block. -/
theorem length_exchanged_le {render : Text → Text → Text} (shortens : NeverLengthens render) (text : Text) :
    (markup.exchanged render text).length + (markup.scan text).blocks.length ≤ text.length :=
  ((markup.inRow_scan text).mono fun _ => isWrittenIn_of_mem_tags).length_replaceBlocksFrom
    fun block => shortens block.opening.argument (block.inner text)

variable {markup render}

theorem LeadsTo.length_lt {text next : Text} (shortens : NeverLengthens render)
    (leads : markup.LeadsTo render text next) : next.length < text.length := by
  obtain ⟨hasBlock, rfl⟩ := leads
  have fewer := markup.length_exchanged_le shortens text
  have blocks := List.length_pos_of_ne_nil hasBlock
  omega

variable (markup)

/-- Passes come to an end, however many are allowed. -/
theorem wellFounded_leadsTo (shortens : NeverLengthens render) :
    WellFounded fun next text => markup.LeadsTo render text next :=
  Subrelation.wf (fun leads => leads.length_lt shortens) (InvImage.wf List.length wellFounded_lt)

/-! ### The whole reduction -/

variable (render)

/-- At most the given number of passes. -/
def reduction (passes : Nat) (problems : List Text) (text : Text) : Reduced :=
  Id.run (markup.reduce (fun argument inner => pure (render argument inner)) passes problems text)

variable {markup render} {passes more : Nat} {problems : List Text} {text : Text}

theorem reduction_of_no_block (noBlock : (markup.scan text).blocks = []) :
    markup.reduction render passes problems text =
      ⟨text, addProblems problems (markup.scan text).faults, true⟩ := by
  rw [reduction, reduce.eq_def]
  simp only [noBlock, List.isEmpty_nil, if_true]
  rfl

theorem reduction_zero (hasBlock : (markup.scan text).blocks ≠ []) :
    markup.reduction render 0 problems text =
      ⟨text, addProblems problems (markup.scan text).faults, false⟩ := by
  rw [reduction, reduce.eq_def]
  simp only [List.isEmpty_iff, hasBlock, if_false]
  rfl

theorem reduction_succ (hasBlock : (markup.scan text).blocks ≠ []) :
    markup.reduction render (passes + 1) problems text =
      markup.reduction render passes (addProblems problems (markup.scan text).faults)
        (markup.exchanged render text) := by
  rw [reduction, reduce.eq_def]
  simp only [List.isEmpty_iff, hasBlock, if_false]
  rfl

/-- As many passes as a text has characters are enough: they end where passes without a bound would. -/
theorem reduction_of_length_le (shortens : NeverLengthens render) (enough : text.length ≤ passes) :
    (markup.reduction render passes problems text).finished = true ∧
      Relation.ReflTransGen (markup.LeadsTo render) text (markup.reduction render passes problems text).text ∧
      (markup.scan (markup.reduction render passes problems text).text).blocks = [] := by
  induction text using (markup.wellFounded_leadsTo shortens).induction generalizing passes problems with
  | _ text ih =>
      by_cases noBlock : (markup.scan text).blocks = []
      · rw [reduction_of_no_block noBlock]
        exact ⟨rfl, .refl, noBlock⟩
      · have leads : markup.LeadsTo render text (markup.exchanged render text) := ⟨noBlock, rfl⟩
        have shorter := leads.length_lt shortens
        obtain ⟨passes, rfl⟩ : ∃ fewer, passes = fewer + 1 := ⟨passes - 1, by omega⟩
        rw [reduction_succ noBlock]
        obtain ⟨finished, reaches, none⟩ := ih _ leads (Nat.le_of_lt_succ (shorter.trans_le enough))
        exact ⟨finished, reaches.head leads, none⟩

/-- No two bounds that are enough make a difference. -/
theorem reduction_congr (shortens : NeverLengthens render) (enough : text.length ≤ passes)
    (enoughToo : text.length ≤ more) :
    markup.reduction render passes problems text = markup.reduction render more problems text := by
  induction text using (markup.wellFounded_leadsTo shortens).induction generalizing passes more problems with
  | _ text ih =>
      by_cases noBlock : (markup.scan text).blocks = []
      · rw [reduction_of_no_block noBlock, reduction_of_no_block noBlock]
      · have leads : markup.LeadsTo render text (markup.exchanged render text) := ⟨noBlock, rfl⟩
        have shorter := leads.length_lt shortens
        obtain ⟨passes, rfl⟩ : ∃ fewer, passes = fewer + 1 := ⟨passes - 1, by omega⟩
        obtain ⟨more, rfl⟩ : ∃ fewer, more = fewer + 1 := ⟨more - 1, by omega⟩
        rw [reduction_succ noBlock, reduction_succ noBlock]
        exact ih _ leads (Nat.le_of_lt_succ (shorter.trans_le enough))
          (Nat.le_of_lt_succ (shorter.trans_le enoughToo))

end BlockMarkup

/-! ### What is reported -/

/-- Every problem is the message of a fault. -/
def AreMessages (problems : List Text) : Prop := ∀ problem ∈ problems, ∃ fault : MarkupFault, fault.message = problem

namespace AreMessages

variable {problems : List Text}

theorem addProblems (messages : AreMessages problems) (faults : List MarkupFault) :
    AreMessages (addProblems problems faults) := by
  intro problem reported
  rcases mem_addProblems.mp reported with earlier | ⟨fault, -, same⟩
  · exact messages problem earlier
  · exact ⟨fault, same⟩

theorem reduction (messages : AreMessages problems) (markup : BlockMarkup) (render : Text → Text → Text)
    (passes : Nat) (text : Text) : AreMessages (markup.reduction render passes problems text).problems := by
  induction passes generalizing problems text with
  | zero =>
      by_cases noBlock : (markup.scan text).blocks = []
      · rw [BlockMarkup.reduction_of_no_block noBlock]
        exact messages.addProblems _
      · rw [BlockMarkup.reduction_zero noBlock]
        exact messages.addProblems _
  | succ passes ih =>
      by_cases noBlock : (markup.scan text).blocks = []
      · rw [BlockMarkup.reduction_of_no_block noBlock]
        exact messages.addProblems _
      · rw [BlockMarkup.reduction_succ noBlock]
        exact ih (messages.addProblems _) _

end AreMessages

/-! ### Conditional blocks -/

namespace Conditional

theorem neverLengthens_render (context : ContextMap) : NeverLengthens (render context) := by
  intro argument content
  rw [render]
  split
  · exact Text.length_trim_le content
  · exact Nat.zero_le _

/-- A limit is reported in other words than a fault. -/
theorem message_ne_limitMessage (fault : MarkupFault) (limit : Int) : fault.message ≠ limitMessage limit := by
  intro same
  have second := congrArg (fun message => (message.drop 1).head?) same
  rw [fault.message_eq] at second
  rcases fault.beginning_cases with closes | opens
  · rw [closes] at second
    exact absurd second (show some 'l' ≠ some 'o' by decide)
  · rw [opens] at second
    exact absurd second (show some 'p' ≠ some 'o' by decide)

variable {context : ContextMap} {passes : Int} {text : Text}

theorem stripSearched_of_finished (finished : (reduction context passes text).finished = true) :
    stripSearched context passes text =
      { text := BlankLines.collapse (reduction context passes text).text
        problems := (reduction context passes text).problems } := by
  simp [stripSearched, finished]

theorem reduction_of_untagged (context : ContextMap) (passes : Int) (untagged : mayHoldTags text = false) :
    reduction context passes text = ⟨text, [], true⟩ :=
  BlockMarkup.reduce_of_no_tags _ _ _ (BlockMarkup.tags_of_untagged hasBracketedTags untagged)

/-- **Conditional blocks are reduced to the end.**  Passes over any text come to an end without a bound.
When the bound is no less than the length of the text, the passes end where they would without it: in a
text in which the scan finds no block.  The limit is not reported, and a greater bound changes nothing. -/
theorem strip_comes_to_end (context : ContextMap) (enough : (text.length : Int) ≤ passes) :
    (WellFounded fun next text => markup.LeadsTo (render context) text next) ∧
      (let left := (reduction context passes text).text
      Relation.ReflTransGen (markup.LeadsTo (render context)) text left ∧ (markup.scan left).blocks = [] ∧
        (strip context passes text).text = if mayHoldTags text then BlankLines.collapse left else left) ∧
      (∀ limit, limitMessage limit ∉ (strip context passes text).problems) ∧
      ∀ more, passes ≤ more → strip context more text = strip context passes text := by
  have shortens := neverLengthens_render context
  have bounded : text.length ≤ passes.toNat := by omega
  obtain ⟨finished, reaches, noBlock⟩ :
      (reduction context passes text).finished = true ∧ _ ∧ _ :=
    BlockMarkup.reduction_of_length_le shortens bounded
  have searched := stripSearched_of_finished finished
  have unchanged (more : Int) (atLeast : passes ≤ more) :
      reduction context more text = reduction context passes text :=
    BlockMarkup.reduction_congr shortens (by omega) bounded
  refine ⟨markup.wellFounded_leadsTo shortens, ⟨reaches, noBlock, ?_⟩, fun limit reported => ?_,
    fun more atLeast => ?_⟩
  · rw [strip_eq, searched]
    cases mayHold : mayHoldTags text with
    | true => rfl
    | false =>
        rw [reduction_of_untagged context passes mayHold]
        rfl
  · rw [strip_eq, searched] at reported
    split at reported
    · have messages : AreMessages (reduction context passes text).problems :=
        AreMessages.reduction (fun _ member => absurd member List.not_mem_nil) markup (render context) _ text
      obtain ⟨fault, same⟩ := messages _ reported
      exact message_ne_limitMessage fault limit same
    · exact nomatch reported
  · have same := unchanged more atLeast
    rw [strip_eq, strip_eq, searched, stripSearched_of_finished (same ▸ finished), same]

/-- A block whose end joins what stands around it into the opening tag of another. -/
def joiningText : Text := "[[I[[IF:A]]x[[ENDIF:A]]F:B]] y [[ENDIF:B]]"

theorem strip_comes_to_end_joiningText :
    (markup.scan joiningText).blocks.length = 1 ∧
      ((joiningText.length : Int) ≤ 42 ∧
        ∀ limit, limitMessage limit ∉ (strip (ContextMap.insert {} "B" "1") 42 joiningText).problems) ∧
      (strip (ContextMap.insert {} "B" "1") 42 joiningText).text = "y" := by
  have enough : (joiningText.length : Int) ≤ 42 := by decide
  exact ⟨by decide +kernel, ⟨enough, (strip_comes_to_end _ enough).2.2.1⟩, by decide +kernel⟩

end Conditional

end Covenant
