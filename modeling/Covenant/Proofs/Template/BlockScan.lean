import Covenant.Proofs.Template.Innermost
import Covenant.Template.Conditional

/-!
# What a scan says of a text

A scan accounts for every tag of a text, it reports the innermost pairs, and these do not overlap.  So
blocks can be exchanged in one go without losing any of the text around them, and repeated passes come
to an end only when no pair is left.
-/

namespace Covenant

/-! ### Faults -/

theorem Pairing.map_tag_faults (found : Pairing) :
    found.faults.map MarkupFault.tag = found.strays.map Prod.fst ++ found.unclosed.reverse := by
  have strays : (fun stray => (strayFault stray).tag) = Prod.fst := funext tag_strayFault
  have unclosed : (fun tag => (MarkupFault.unclosed tag).tag) = id := rfl
  simp only [faults, List.map_append, List.map_map, Function.comp_def, strays, unclosed, List.map_id]

/-- The tags are the ends of pairs and those with a fault. -/
theorem perm_tags (tags : List Tag) :
    tags.Perm ((pairing [] tags).pairs.map Prod.fst ++ ((pairing [] tags).pairs.map Prod.snd ++
      (pairTags [] tags).faults.map MarkupFault.tag)) := by
  obtain ⟨layers, -, isTags, paired⟩ := Layers.exists_of_tags tags
  have roles := layers.perm_tagsIn []
  rw [List.append_nil, isTags] at roles
  rw [faults_pairTags, List.map_nil, Pairing.map_tag_faults, paired]
  exact roles.trans ((((List.reverse_perm _).symm.append_left _).append_left _).append_left _)

/-- What begins before it ends is counted at one of its ends only. -/
theorem countP_ends (pairs : List (Tag × Tag)) (place : Nat)
    (inOrder : ∀ pair ∈ pairs, pair.1.start < pair.2.start) :
    (pairs.countP fun pair => pair.1.start = place ∨ pair.2.start = place) =
      (pairs.countP fun pair => pair.1.start = place) + pairs.countP fun pair => pair.2.start = place := by
  induction pairs with
  | nil => rfl
  | cons pair pairs ih =>
      obtain ⟨own, later⟩ := List.forall_mem_cons.mp inOrder
      simp only [List.countP_cons, ih later, decide_eq_true_eq]
      split_ifs <;> omega

namespace BlockMarkup

variable {markup : BlockMarkup} {text : Text}

/-- The pairs of tags in a text, in the order in which blocks end. -/
def pairs (markup : BlockMarkup) (text : Text) : List (Tag × Tag) := (pairing [] (markup.tags text)).pairs

theorem start_lt_of_mem_pairs {pair : Tag × Tag} (member : pair ∈ markup.pairs text) :
    pair.1.start < pair.2.start := by
  obtain ⟨-, -, -, before, inner, after, split, -⟩ := mem_pairs_iff.mp member
  have inOrder := markup.start_lt_tags text
  rw [split] at inOrder
  have behind := (List.pairwise_append.mp inOrder).2.1
  exact (List.pairwise_cons.mp behind).1 pair.2 (by simp)

/-- Every tag is an end of one pair or has one fault. -/
theorem countP_roles {tag : Tag} (member : tag ∈ markup.tags text) :
    ((markup.pairs text).countP fun pair => pair.1.start = tag.start ∨ pair.2.start = tag.start) +
      ((markup.scan text).faults.countP fun fault => fault.tag.start = tag.start) = 1 := by
  have places : ((markup.tags text).map (·.start)).Nodup :=
    List.pairwise_map.mpr ((markup.start_lt_tags text).imp Nat.ne_of_lt)
  have once : ((markup.tags text).countP fun other => other.start = tag.start) = 1 := by
    have counted := List.count_eq_one_of_mem places (List.mem_map_of_mem member)
    rwa [List.count_eq_countP, List.countP_map] at counted
  have roles := (perm_tags (markup.tags text)).countP_eq fun other => other.start = tag.start
  rw [once, List.countP_append, List.countP_append, List.countP_map, List.countP_map, List.countP_map] at roles
  rw [countP_ends _ _ fun pair => start_lt_of_mem_pairs, Nat.add_assoc]
  exact roles.symm

theorem tag_mem_tags {fault : MarkupFault} (member : fault ∈ (markup.scan text).faults) :
    fault.tag ∈ markup.tags text := by
  have atFault : fault.tag ∈ (pairTags [] (markup.tags text)).faults.map MarkupFault.tag :=
    List.mem_map_of_mem member
  exact (perm_tags _).mem_iff.mpr (List.mem_append_right _ (List.mem_append_right _ atFault))

/-- There is a block as long as there is a pair. -/
theorem blocks_eq_nil_iff : (markup.scan text).blocks = [] ↔ markup.pairs text = [] := by
  constructor
  · intro noBlock
    refine List.eq_nil_iff_forall_not_mem.mpr fun pair member => ?_
    obtain ⟨block, stands⟩ := (mem_pairs_iff.mp member).exists_block
    have found := Block.mem_blocks_iff.mpr stands
    rw [show (pairTags [] (markup.tags text)).blocks = [] from noBlock] at found
    cases found
  · intro noPair
    refine List.eq_nil_iff_forall_not_mem.mpr fun block member => ?_
    have pair := mem_pairs_iff.mpr (mem_blocks_scan_iff.mp member).1
    rw [show (pairing [] (markup.tags text)).pairs = [] from noPair] at pair
    cases pair

end BlockMarkup

/-! ### The text around blocks -/

/-- The text in front of blocks, between them and behind them, from a place on. -/
def gapsFrom (text : Text) : Nat → List Block → List Text
  | cursor, [] => [text.drop cursor]
  | cursor, block :: blocks => Text.slice cursor block.start text :: gapsFrom text block.stop blocks

/-- Texts with others put between them, in turn. -/
def weave : List Text → List Text → Text
  | gap :: gaps, filling :: fillings => gap ++ filling ++ weave gaps fillings
  | gaps, _ => gaps.flatten

namespace InRow

variable {text : Text} {cursor : Nat} {blocks : List Block}

/-- A text is the text around its blocks with the blocks between. -/
theorem weave_sources (row : InRow (·.StandsIn text) cursor blocks) :
    weave (gapsFrom text cursor blocks) (blocks.map (·.source text)) = text.drop cursor := by
  induction row with
  | nil => simp [gapsFrom, weave]
  | cons reached opening closing inOrder later ih =>
      rw [gapsFrom, List.map_cons, weave, ih, List.append_assoc,
        ← (Block.take_and_drop opening closing inOrder).1, ← Text.drop_eq_slice_append reached]

theorem reached {Holds : Tag → Prop} (row : InRow Holds cursor blocks) :
    ∀ block ∈ blocks, cursor ≤ block.start := by
  induction row with
  | nil => exact nofun
  | cons reached opening closing inOrder later ih =>
      refine List.forall_mem_cons.mpr ⟨reached, fun block member => ?_⟩
      have behind := ih block member
      simp only [Tag.EndsBefore, Tag.stop, Block.stop, Block.start] at inOrder behind reached ⊢
      omega

theorem pairwise {Holds : Tag → Prop} (row : InRow Holds cursor blocks) :
    blocks.Pairwise fun first second => first.stop ≤ second.start := by
  induction row with
  | nil => exact .nil
  | cons reached opening closing inOrder later ih => exact List.pairwise_cons.mpr ⟨later.reached, ih⟩

end InRow

theorem Block.stop_le_length {block : Block} {text : Text} (closes : block.closing.StandsIn text) :
    block.stop ≤ text.length := by
  obtain ⟨front, rest, rfl, starts⟩ := closes
  rw [stop, Tag.stop, starts, List.length_append, List.length_append]
  omega

section Exchanging

variable {m : Type → Type} [Monad m] [LawfulMonad m]

/-- Exchanging blocks keeps the text around them. -/
theorem replaceBlocksFrom_eq (text : Text) (render : Block → m Text) (cursor : Nat) (blocks : List Block) :
    replaceBlocksFrom text render cursor blocks = weave (gapsFrom text cursor blocks) <$> blocks.mapM render := by
  induction blocks generalizing cursor with
  | nil => simp [replaceBlocksFrom, gapsFrom, weave]
  | cons block blocks ih =>
      simp only [replaceBlocksFrom, gapsFrom, List.mapM_cons, ih, map_bind, bind_map_left, map_pure, weave]

/-- Repeated passes are finished exactly when no pair is left. -/
theorem map_finished_reduce (markup : BlockMarkup) (render : Text → Text → m Text) (passes : Nat)
    (problems : List Text) (text : Text) :
    (·.finished) <$> markup.reduce render passes problems text =
      (fun reduced => (markup.pairs reduced.text).isEmpty) <$> markup.reduce render passes problems text := by
  have decided (text : Text) : (markup.scan text).blocks.isEmpty = (markup.pairs text).isEmpty := by
    rw [Bool.eq_iff_iff, List.isEmpty_iff, List.isEmpty_iff]
    exact BlockMarkup.blocks_eq_nil_iff
  induction passes generalizing problems text with
  | zero =>
      rw [BlockMarkup.reduce, decided]
      cases noPair : (markup.pairs text).isEmpty <;> simp [noPair]
  | succ passes ih =>
      rw [BlockMarkup.reduce, decided]
      cases noPair : (markup.pairs text).isEmpty <;> simp [noPair, ih]

end Exchanging

/-! ### The whole scan -/

namespace BlockMarkup

/-- What a scan says of a text. -/
structure IsExact (markup : BlockMarkup) (text : Text) : Prop where
  /-- The tags come by their places, so a tag is told by where it stands. -/
  ordered : (markup.tags text).Pairwise fun first second => first.start < second.start
  wellNested : (markup.scan text).faults = [] ↔ WellNested (markup.tags text)
  pairs : ∀ opening closing,
    (opening, closing) ∈ markup.pairs text ↔ IsPair (markup.tags text) opening closing
  accounted : ∀ tag ∈ markup.tags text,
    ((markup.pairs text).countP fun pair => pair.1.start = tag.start ∨ pair.2.start = tag.start) +
      ((markup.scan text).faults.countP fun fault => fault.tag.start = tag.start) = 1
  faults : ∀ fault ∈ (markup.scan text).faults, fault.tag ∈ markup.tags text
  innermost : ∀ block, block ∈ (markup.scan text).blocks ↔
    (block.opening, block.closing) ∈ markup.pairs text ∧
      ∀ tag ∈ markup.tags text, block.opening.start < tag.start → tag.start < block.closing.start →
        tag.isOpen = false
  apart : (markup.scan text).blocks.Pairwise fun first second => first.stop ≤ second.start
  inText : ∀ block ∈ (markup.scan text).blocks, block.start < block.stop ∧ block.stop ≤ text.length
  progress : (markup.scan text).blocks = [] ↔ markup.pairs text = []

theorem isExact (markup : BlockMarkup) (text : Text) : markup.IsExact text where
  ordered := markup.start_lt_tags text
  wellNested := faults_eq_nil_iff
  pairs _ _ := mem_pairs_iff
  accounted _ := countP_roles
  faults _ := tag_mem_tags
  innermost block := by
    rw [mem_blocks_scan_iff]
    exact and_congr_left fun _ => mem_pairs_iff.symm
  apart := (markup.inRow_scan text).pairwise
  inText block member := by
    have isPair := (mem_blocks_scan_iff.mp member).1
    have inOrder := start_lt_of_mem_pairs (mem_pairs_iff.mpr isPair)
    have closes := (markup.standsIn_tags text).2 block.closing isPair.closing_mem
    refine ⟨?_, Block.stop_le_length closes⟩
    rw [Block.start, Block.stop, Tag.stop]
    exact Nat.lt_of_lt_of_le inOrder (Nat.le_add_right _ _)
  progress := blocks_eq_nil_iff

/-- **A scan accepts well nested markup and finds the innermost pairs.**  It has no fault to report
exactly when the tags of the text are well nested.  In every text each tag is an end of one pair or has
one fault, and the blocks are the pairs that no tag opens in: they stand one behind the other, and there
is one as long as there is a pair.  Exchanging the blocks keeps all the text around them, and repeated
passes are finished exactly when no pair is left. -/
theorem scan_isExact (markup : BlockMarkup) (text : Text) :
    markup.IsExact text ∧
      (let blocks := (markup.scan text).blocks
      weave (gapsFrom text 0 blocks) (blocks.map (·.source text)) = text ∧
      ∀ {m : Type → Type} [Monad m] [LawfulMonad m] (render : Text → Text → m Text),
        replaceBlocks render text blocks = weave (gapsFrom text 0 blocks) <$>
          blocks.mapM fun block => render block.opening.argument (block.inner text)) ∧
      ∀ {m : Type → Type} [Monad m] [LawfulMonad m] (render : Text → Text → m Text) (passes : Nat)
        (problems : List Text),
        (·.finished) <$> markup.reduce render passes problems text =
          (fun reduced => (markup.pairs reduced.text).isEmpty) <$>
            markup.reduce render passes problems text := by
  have row : InRow (·.StandsIn text) 0 (markup.scan text).blocks :=
    (markup.inRow_scan text).mono (markup.standsIn_tags text).2
  refine ⟨markup.isExact text, ⟨row.weave_sources, fun render => ?_⟩, fun render passes problems => ?_⟩
  · exact replaceBlocksFrom_eq text _ 0 _
  · exact map_finished_reduce markup render passes problems text

/-- A block inside another, and a closing tag without an opening one. -/
def nestedText : Text := "a [[IF:X]]b[[IF:Y]]c[[ENDIF:Y]][[ENDIF:X]] d[[ENDIF:Z]]"

def nestedBlocks : List Block := (Conditional.markup.scan nestedText).blocks

def textAround : List Text := ["a [[IF:X]]b", "[[ENDIF:X]] d[[ENDIF:Z]]"]

/-- A rendering that takes the tags away. -/
def untagged (_ inner : Text) : Outcome Text := .ok inner

theorem scan_nestedText_isExact :
    Conditional.markup.IsExact nestedText ∧
      gapsFrom nestedText 0 nestedBlocks = textAround ∧
      replaceBlocks untagged nestedText nestedBlocks = .ok "a [[IF:X]]bc[[ENDIF:X]] d[[ENDIF:Z]]" := by
  have gaps : gapsFrom nestedText 0 nestedBlocks = textAround := by decide +kernel
  have contents : nestedBlocks.map (·.inner nestedText) = [("c" : Text)] := by decide +kernel
  have rendered : (nestedBlocks.mapM fun block => untagged block.opening.argument (block.inner nestedText)) =
      .ok (nestedBlocks.map (·.inner nestedText)) := Outcome.mapM_eq_ok fun _ _ => rfl
  obtain ⟨exact, ⟨-, exchanged⟩, -⟩ := scan_isExact Conditional.markup nestedText
  refine ⟨exact, gaps, (exchanged untagged).trans ?_⟩
  rw [← nestedBlocks, rendered, gaps, contents]
  rfl

end BlockMarkup

end Covenant
