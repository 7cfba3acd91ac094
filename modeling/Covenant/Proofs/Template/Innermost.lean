import Covenant.Proofs.Template.LayerTags
import Covenant.Proofs.Template.Standing

/-!
# Well-nested markup and innermost pairs

Tags are well nested when they are whole blocks, one behind the other and one inside the other.  That
is the markup in which a scan finds no fault.  In any markup the tags pair as if every block had been
closed before something is closed around it: two tags with one key are a pair when between them there
are only pairs and closing tags that do not fit the opening one.
-/

namespace Covenant

/-- Whole blocks, one behind the other and one inside the other. -/
inductive WellNested : List Tag → Prop
  | nil : WellNested []
  | append {first second : List Tag} (earlier : WellNested first) (later : WellNested second) :
      WellNested (first ++ second)
  | block {opening closing : Tag} {inner : List Tag} (isOpen : opening.isOpen = true)
      (isClosing : closing.isOpen = false) (fits : opening.key = closing.key)
      (inside : WellNested inner) : WellNested (opening :: (inner ++ [closing]))

/-- Tags that leave nothing open and close nothing around them: whole blocks and stray tags. -/
inductive Settled : Option Tag → List Tag → Prop
  | nil {around : Option Tag} : Settled around []
  | stray {around : Option Tag} {tag : Tag} {tags : List Tag} (stray : IsStray around tag)
      (later : Settled around tags) : Settled around (tag :: tags)
  | block {around : Option Tag} {opening closing : Tag} {inner tags : List Tag}
      (isOpen : opening.isOpen = true) (isClosing : closing.isOpen = false)
      (fits : opening.key = closing.key) (inside : Settled (some opening) inner)
      (later : Settled around tags) : Settled around (opening :: (inner ++ closing :: tags))

/-- Two of the tags are a pair. -/
structure IsPair (tags : List Tag) (opening closing : Tag) : Prop where
  isOpen : opening.isOpen = true
  isClosing : closing.isOpen = false
  fits : opening.key = closing.key
  between : ∃ before inner after, tags = before ++ opening :: (inner ++ closing :: after) ∧
    Settled (some opening) inner

section Settling

variable {around : Option Tag} {tags others : List Tag}

theorem Settled.strays_append (strays : ∀ tag ∈ tags, IsStray around tag)
    (settled : Settled around others) : Settled around (tags ++ others) := by
  induction tags with
  | nil => exact settled
  | cons tag tags ih =>
      obtain ⟨own, later⟩ := List.forall_mem_cons.mp strays
      exact .stray own (ih later)

theorem Nest.settled_tagsIn {nest : Nest} (matched : nest.Matched around) :
    Settled around (tagsIn nest.parts) := by
  induction nest generalizing around with
  | nil => exact .nil
  | leaf content rest ih =>
      rw [parts, tagsIn_append]
      exact .strays_append matched.1 (ih matched.2)
  | block opening inner closing rest innerIH restIH =>
      obtain ⟨isOpen, isClosing, fits, inside, later⟩ := matched
      rw [parts, tagsIn_tagged_cons, tagsIn_append, tagsIn_tagged_cons]
      exact .block isOpen isClosing fits (innerIH inside) (restIH later)

end Settling

/-! ### How runs of tags are paired -/

section Runs

variable {around : List Tag} {tags : List Tag}

/-- What a run of tags makes of the open tags around it, whatever comes behind. -/
structure Runs (around tags inside : List Tag) (pairs : List (Tag × Tag)) (strays : List (Tag × List Tag)) :
    Prop where
  onward (rest : List Tag) : pairing around (tags ++ rest) =
    { pairs := pairs ++ (pairing inside rest).pairs
      strays := strays ++ (pairing inside rest).strays
      unclosed := (pairing inside rest).unclosed }

theorem Runs.nil : Runs around [] around [] [] := ⟨fun _ => rfl⟩

theorem Runs.append {inside further others : List Tag} {pairs morePairs : List (Tag × Tag)}
    {strays moreStrays : List (Tag × List Tag)} (first : Runs around tags inside pairs strays)
    (second : Runs inside others further morePairs moreStrays) :
    Runs around (tags ++ others) further (pairs ++ morePairs) (strays ++ moreStrays) where
  onward rest := by
    rw [List.append_assoc, first.onward, second.onward, List.append_assoc, List.append_assoc]

theorem runs_opening {tag : Tag} (isOpen : tag.isOpen = true) : Runs around [tag] (tag :: around) [] [] :=
  ⟨fun _ => pairing_opening isOpen⟩

theorem runs_stray {tag : Tag} (stray : IsStray around.head? tag) :
    Runs around [tag] around [] [(tag, around)] :=
  ⟨fun _ => pairing_stray stray⟩

theorem runs_fitting {opening closing : Tag} (isClosing : closing.isOpen = false)
    (fits : opening.key = closing.key) : Runs (opening :: around) [closing] around [(opening, closing)] [] :=
  ⟨fun _ => pairing_fitting isClosing fits⟩

theorem exists_runs (around tags : List Tag) : ∃ inside pairs strays, Runs around tags inside pairs strays := by
  induction tags generalizing around with
  | nil => exact ⟨_, _, _, .nil⟩
  | cons tag tags ih =>
      obtain ⟨next, pairs, strays, step⟩ : ∃ next pairs strays, Runs around [tag] next pairs strays := by
        rcases tag.opens_or_stray_or_fits around with
          isOpen | stray | ⟨isClosing, innermost, outer, rfl, fits⟩
        · exact ⟨_, _, _, runs_opening isOpen⟩
        · exact ⟨_, _, _, runs_stray stray⟩
        · exact ⟨_, _, _, runs_fitting isClosing fits⟩
      obtain ⟨inside, morePairs, moreStrays, later⟩ := ih next
      exact ⟨inside, _, _, step.append later⟩

theorem runs_block {opening closing : Tag} {pairs : List (Tag × Tag)} {strays : List (Tag × List Tag)}
    (isOpen : opening.isOpen = true) (isClosing : closing.isOpen = false)
    (fits : opening.key = closing.key) (inside : Runs (opening :: around) tags (opening :: around) pairs strays) :
    Runs around (opening :: (tags ++ [closing])) around (pairs ++ [(opening, closing)]) strays := by
  have whole := (runs_opening isOpen).append (inside.append (runs_fitting isClosing fits))
  simpa using whole

theorem Settled.exists_runs (settled : Settled around.head? tags) :
    ∃ pairs strays, Runs around tags around pairs strays := by
  generalize isAround : around.head? = innermost at settled
  induction settled generalizing around with
  | nil => exact ⟨_, _, .nil⟩
  | stray stray later ih =>
      obtain ⟨pairs, strays, run⟩ := ih isAround
      subst isAround
      exact ⟨_, _, (runs_stray stray).append run⟩
  | @block _ opening closing inner tags isOpen isClosing fits inside later insideIH laterIH =>
      obtain ⟨pairs, strays, inner⟩ := @insideIH (opening :: around) rfl
      obtain ⟨morePairs, moreStrays, run⟩ := laterIH isAround
      have whole := (runs_block isOpen isClosing fits inner).append run
      rw [List.cons_append, List.append_assoc] at whole
      exact ⟨_, _, whole⟩

theorem WellNested.exists_runs (nested : WellNested tags) (around : List Tag) :
    ∃ pairs, Runs around tags around pairs [] := by
  induction nested generalizing around with
  | nil => exact ⟨_, .nil⟩
  | append earlier later earlierIH laterIH =>
      obtain ⟨pairs, first⟩ := earlierIH around
      obtain ⟨morePairs, second⟩ := laterIH around
      exact ⟨_, first.append second⟩
  | @block opening closing inner isOpen isClosing fits inside ih =>
      obtain ⟨pairs, run⟩ := ih (opening :: around)
      exact ⟨_, runs_block isOpen isClosing fits run⟩

end Runs

/-! ### The pairs of a scan -/

section Pairs

variable {tags : List Tag} {opening closing : Tag}

theorem IsPair.inside (isPair : IsPair tags opening closing) (front back : List Tag) :
    IsPair (front ++ (tags ++ back)) opening closing := by
  obtain ⟨isOpen, isClosing, fits, before, inner, after, rfl, settled⟩ := isPair
  exact ⟨isOpen, isClosing, fits, front ++ before, inner, after ++ back, by simp, settled⟩

theorem IsPair.closing_mem (isPair : IsPair tags opening closing) : closing ∈ tags := by
  obtain ⟨-, -, -, before, inner, after, rfl, -⟩ := isPair
  simp

theorem Nest.isPair_of_mem {nest : Nest} {around : Option Tag} (matched : nest.Matched around)
    (pair : (opening, closing) ∈ nest.pairs) : IsPair (tagsIn nest.parts) opening closing := by
  induction nest generalizing around with
  | nil => cases pair
  | leaf content rest ih =>
      rw [parts, tagsIn_append]
      simpa using (ih matched.2 pair).inside (tagsIn content) []
  | block first inner last rest innerIH restIH =>
      obtain ⟨isOpen, isClosing, fits, inside, later⟩ := matched
      rw [parts, tagsIn_tagged_cons, tagsIn_append, tagsIn_tagged_cons]
      rcases List.mem_append.mp pair with isInner | others
      · exact (innerIH inside isInner).inside [first] (last :: tagsIn rest.parts)
      · rcases List.mem_cons.mp others with same | isLater
        · cases same
          exact ⟨isOpen, isClosing, fits, [], tagsIn inner.parts, tagsIn rest.parts, rfl,
            inner.settled_tagsIn inside⟩
        · have behind := (restIH later isLater).inside (first :: (tagsIn inner.parts ++ [last])) []
          simpa using behind

theorem Layers.isPair_of_mem {layers : Layers} {around : Option Tag} (matched : layers.Matched around)
    (pair : (opening, closing) ∈ layers.pairs) : IsPair (tagsIn layers.parts) opening closing := by
  induction layers generalizing around with
  | last nest => exact nest.isPair_of_mem matched pair
  | more nest first rest ih =>
      obtain ⟨matchedNest, -, matchedRest⟩ := matched
      rw [parts, tagsIn_append, tagsIn_tagged_cons]
      rcases List.mem_append.mp pair with here | inside
      · exact (nest.isPair_of_mem matchedNest here).inside [] (first :: tagsIn rest.parts)
      · have behind := (ih matchedRest inside).inside (tagsIn nest.parts ++ [first]) []
        simpa using behind

/-- Tags stand in layers, in which they pair as in a scan. -/
theorem Layers.exists_of_tags (tags : List Tag) :
    ∃ layers : Layers, layers.Matched none ∧ tagsIn layers.parts = tags ∧
      pairing [] tags = ⟨layers.pairs, layers.strays [], layers.unclosed []⟩ := by
  have onlyTags : tagsIn (tags.map .tagged) = tags := by
    induction tags with
    | nil => rfl
    | cons tag tags ih => rw [List.map_cons, tagsIn_tagged_cons, ih]
  obtain ⟨layers, matched, same⟩ := Layers.exists_matched (tags.map .tagged)
  rw [← same] at onlyTags
  refine ⟨layers, matched, onlyTags, ?_⟩
  rw [← onlyTags]
  exact @Layers.pairing_parts layers [] matched

theorem mem_pairs_iff : (opening, closing) ∈ (pairing [] tags).pairs ↔ IsPair tags opening closing := by
  constructor
  · intro pair
    obtain ⟨layers, matched, rfl, paired⟩ := Layers.exists_of_tags tags
    rw [paired] at pair
    exact layers.isPair_of_mem matched pair
  · rintro ⟨isOpen, isClosing, fits, before, inner, after, rfl, settled⟩
    obtain ⟨around, pairs, strays, upTo⟩ := exists_runs [] before
    obtain ⟨innerPairs, innerStrays, inside⟩ := @Settled.exists_runs (opening :: around) inner settled
    rw [upTo.onward, pairing_opening isOpen, inside.onward, pairing_fitting isClosing fits]
    simp

end Pairs

/-! ### Markup without faults -/

theorem Nest.wellNested {nest : Nest} {innermost : Option Tag} {around : List Tag}
    (matched : nest.Matched innermost) (noStrays : nest.strays around = []) :
    WellNested (tagsIn nest.parts) := by
  induction nest generalizing innermost around with
  | nil => exact .nil
  | leaf content rest ih =>
      obtain ⟨none, noneLater⟩ := List.append_eq_nil_iff.mp noStrays
      rw [parts, tagsIn_append, List.map_eq_nil_iff.mp none]
      exact ih matched.2 noneLater
  | block opening inner closing rest innerIH restIH =>
      obtain ⟨isOpen, isClosing, fits, inside, later⟩ := matched
      obtain ⟨noneInside, noneLater⟩ := List.append_eq_nil_iff.mp noStrays
      have whole := (WellNested.block isOpen isClosing fits (innerIH inside noneInside)).append
        (restIH later noneLater)
      simpa [parts] using whole

/-- A scan finds no fault exactly in markup that is well nested. -/
theorem faults_eq_nil_iff {tags : List Tag} : (pairTags [] tags).faults = [] ↔ WellNested tags := by
  rw [faults_pairTags]
  constructor
  · intro none
    obtain ⟨layers, matched, rfl, paired⟩ := Layers.exists_of_tags tags
    rw [List.map_nil, paired, Pairing.faults, List.append_eq_nil_iff,
      List.map_eq_nil_iff, List.map_eq_nil_iff, List.reverse_eq_nil_iff] at none
    obtain ⟨noStrays, noneOpen⟩ := none
    cases layers with
    | last nest => exact nest.wellNested matched noStrays
    | more nest opening rest =>
        have isUnclosed := rest.mem_unclosed_of_around (List.mem_singleton_self opening)
        exact absurd noneOpen (List.ne_nil_of_mem isUnclosed)
  · intro nested
    obtain ⟨pairs, run⟩ := nested.exists_runs []
    have whole := run.onward []
    rw [List.append_nil] at whole
    rw [List.map_nil, whole]
    rfl

end Covenant

/-!
## Innermost pairs

Every tag is an end of one pair or has one fault.  The blocks of a scan are the pairs without an opening
tag between them.  They stand one behind the other, so exchanging them keeps the text around them, and
there is one as long as there is a pair.
-/

namespace Covenant

/-! ### Blocks among tags -/

namespace Block

/-- The block is closed by the first of the tags that opens a block or fits its opening tag. -/
def ClosesIn (block : Block) : List Tag → Prop
  | [] => False
  | tag :: tags => tag.isOpen = false ∧
      (block.opening.key = tag.key ∧ tag = block.closing ∨
        block.opening.key ≠ tag.key ∧ block.ClosesIn tags)

/-- The block opens and closes among the tags, and none of them opens between. -/
def StandsAmong (block : Block) : List Tag → Prop
  | [] => False
  | tag :: tags => tag.isOpen = true ∧ tag = block.opening ∧ block.ClosesIn tags ∨ block.StandsAmong tags

variable {block : Block} {tags : List Tag}

theorem closesIn_iff :
    block.ClosesIn tags ↔ ∃ inner after, tags = inner ++ block.closing :: after ∧
      block.closing.isOpen = false ∧ block.opening.key = block.closing.key ∧
      ∀ tag ∈ inner, IsStray (some block.opening) tag := by
  constructor
  · intro closes
    induction tags with
    | nil => cases closes
    | cons tag tags ih =>
        obtain ⟨isClosing, ⟨fits, rfl⟩ | ⟨differs, later⟩⟩ := closes
        · exact ⟨[], tags, rfl, isClosing, fits, nofun⟩
        · obtain ⟨inner, after, rfl, closes, fits, strays⟩ := ih later
          have stray : IsStray (some block.opening) tag := ⟨isClosing, by simpa using differs⟩
          exact ⟨tag :: inner, after, rfl, closes, fits, List.forall_mem_cons.mpr ⟨stray, strays⟩⟩
  · rintro ⟨inner, after, rfl, isClosing, fits, strays⟩
    induction inner with
    | nil => exact ⟨isClosing, .inl ⟨fits, rfl⟩⟩
    | cons tag inner ih =>
        obtain ⟨⟨closes, differs⟩, later⟩ := List.forall_mem_cons.mp strays
        exact ⟨closes, .inr ⟨differs _ rfl, ih later⟩⟩

theorem standsAmong_iff :
    block.StandsAmong tags ↔ block.opening.isOpen = true ∧
      ∃ before rest, tags = before ++ block.opening :: rest ∧ block.ClosesIn rest := by
  constructor
  · intro stands
    induction tags with
    | nil => cases stands
    | cons tag tags ih =>
        rcases stands with ⟨isOpen, rfl, closes⟩ | later
        · exact ⟨isOpen, [], tags, rfl, closes⟩
        · obtain ⟨isOpen, before, rest, rfl, closes⟩ := ih later
          exact ⟨isOpen, tag :: before, rest, rfl, closes⟩
  · rintro ⟨isOpen, before, rest, rfl, closes⟩
    induction before with
    | nil => exact .inl ⟨isOpen, rfl, closes⟩
    | cons tag before ih => exact .inr ih

theorem StandsAmong.inside (stands : block.StandsAmong tags) (front back : List Tag) :
    block.StandsAmong (front ++ (tags ++ back)) := by
  obtain ⟨isOpen, before, rest, rfl, closes⟩ := standsAmong_iff.mp stands
  obtain ⟨inner, after, rfl, ends⟩ := closesIn_iff.mp closes
  have stillCloses : block.ClosesIn (inner ++ block.closing :: (after ++ back)) :=
    closesIn_iff.mpr ⟨inner, _, rfl, ends⟩
  exact standsAmong_iff.mpr ⟨isOpen, front ++ before, _, by simp, stillCloses⟩

/-- The blocks of a scan, with those that begin with the innermost open tag. -/
theorem mem_blocks_pairTags {waiting : List OpenTag} (outer : ∀ opened ∈ waiting.tail, opened.hasInner = true) :
    block ∈ (pairTags waiting tags).blocks ↔ block.StandsAmong tags ∨
      ∃ innermost ∈ waiting.head?, innermost.hasInner = false ∧ innermost.tag = block.opening ∧
        block.ClosesIn tags := by
  induction tags generalizing waiting with
  | nil => simp [pairTags, StandsAmong, ClosesIn]
  | cons tag tags ih =>
      by_cases isOpen : tag.isOpen = true
      · have opens : pairTags waiting (tag :: tags) = pairTags (pushOpen tag waiting) tags := by
          rw [pairTags.eq_def]
          exact if_pos isOpen
        have innermost : (pushOpen tag waiting).head? = some { tag } := by cases waiting <;> rfl
        have outerToo : ∀ opened ∈ (pushOpen tag waiting).tail, opened.hasInner = true := by
          cases waiting with
          | nil => exact List.forall_mem_nil _
          | cons opened waiting => exact List.forall_mem_cons.mpr ⟨rfl, outer⟩
        rw [opens, ih outerToo, innermost]
        simp [StandsAmong, ClosesIn, isOpen, or_comm]
      · have isClosing : tag.isOpen = false := Bool.eq_false_iff.mpr isOpen
        have notOpened : block.StandsAmong (tag :: tags) ↔ block.StandsAmong tags := by
          simp [StandsAmong, isClosing]
        rw [notOpened]
        cases waiting with
        | nil => simpa [pairTags, isClosing] using @ih [] (List.forall_mem_nil _)
        | cons innermost rest =>
            have touched : ∀ opened ∈ rest, opened.hasInner = true := outer
            by_cases fits : innermost.tag.key = tag.key
            · have behind : block ∈ (pairTags rest tags).blocks ↔ block.StandsAmong tags := by
                rw [@ih rest fun opened member => touched opened (List.mem_of_mem_tail member), or_iff_left]
                rintro ⟨opened, isNext, fresh, -⟩
                rw [touched opened (List.mem_of_mem_head? isNext)] at fresh
                cases fresh
              rw [pairTags, if_neg isOpen]
              dsimp only
              rw [if_pos fits]
              split
              · rename_i hasInner
                rw [behind, or_iff_left]
                rintro ⟨opened, ⟨⟩, fresh, -⟩
                rw [hasInner] at fresh
                cases fresh
              · rename_i fresh
                rw [List.mem_cons, behind, or_comm]
                refine or_congr_right ⟨?_, ?_⟩
                · rintro rfl
                  exact ⟨innermost, rfl, Bool.eq_false_iff.mpr fresh, rfl, isClosing, .inl ⟨fits, rfl⟩⟩
                · rintro ⟨opened, ⟨⟩, -, opens, -, ⟨-, closes⟩ | ⟨differs, -⟩⟩
                  · rw [opens, closes]
                  · exact absurd (opens ▸ fits) differs
            · rw [pairTags, if_neg isOpen]
              dsimp only
              rw [if_neg fits]
              refine (ih outer).trans (or_congr_right ?_)
              simp only [List.head?_cons, Option.mem_some_iff, exists_eq_left']
              refine and_congr_right fun _ => and_congr_right fun opens => ?_
              rw [ClosesIn, ← opens]
              simp [fits, isClosing]

theorem mem_blocks_iff : block ∈ (pairTags [] tags).blocks ↔ block.StandsAmong tags := by
  have scanned := @mem_blocks_pairTags block tags [] nofun
  simpa using scanned

end Block

/-! ### Pairs and blocks -/

section Pairs

variable {around : Option Tag} {tags : List Tag} {opening closing : Tag}

theorem Block.StandsAmong.isPair {block : Block} (stands : block.StandsAmong tags) :
    IsPair tags block.opening block.closing := by
  obtain ⟨isOpen, before, rest, rfl, closes⟩ := standsAmong_iff.mp stands
  obtain ⟨inner, after, rfl, isClosing, fits, strays⟩ := closesIn_iff.mp closes
  have settled := Settled.strays_append strays .nil
  rw [List.append_nil] at settled
  exact ⟨isOpen, isClosing, fits, before, inner, after, rfl, settled⟩

theorem Settled.isStray_of_closings (settled : Settled around tags)
    (closings : ∀ tag ∈ tags, tag.isOpen = false) : ∀ tag ∈ tags, IsStray around tag := by
  induction settled with
  | nil => exact nofun
  | stray stray later ih =>
      exact List.forall_mem_cons.mpr ⟨stray, ih (List.forall_mem_cons.mp closings).2⟩
  | block isOpen =>
      rw [(List.forall_mem_cons.mp closings).1] at isOpen
      cases isOpen

/-- A pair without an opening tag between is a block of the scan. -/
theorem IsPair.standsAmong (before : List Tag) {inner after : List Tag} (isOpen : opening.isOpen = true)
    (isClosing : closing.isOpen = false) (fits : opening.key = closing.key)
    (strays : ∀ tag ∈ inner, IsStray (some opening) tag) :
    (Block.mk opening closing).StandsAmong (before ++ opening :: (inner ++ closing :: after)) :=
  Block.standsAmong_iff.mpr ⟨isOpen, before, _, rfl,
    Block.closesIn_iff.mpr ⟨inner, after, rfl, isClosing, fits, strays⟩⟩

theorem Settled.isStray_or_block (settled : Settled around tags) :
    (∀ tag ∈ tags, IsStray around tag) ∨ ∃ block : Block, block.StandsAmong tags := by
  induction settled with
  | nil => exact .inl nofun
  | stray stray later ih =>
      rcases ih with strays | ⟨block, stands⟩
      · exact .inl (List.forall_mem_cons.mpr ⟨stray, strays⟩)
      · exact .inr ⟨block, .inr stands⟩
  | @block around opening closing inner tags isOpen isClosing fits inside later insideIH laterIH =>
      rcases insideIH with strays | ⟨block, stands⟩
      · exact .inr ⟨_, IsPair.standsAmong [] isOpen isClosing fits strays⟩
      · exact .inr ⟨block, stands.inside [opening] (closing :: tags)⟩

/-- Where there is a pair, there is an innermost one. -/
theorem IsPair.exists_block (isPair : IsPair tags opening closing) :
    ∃ block : Block, block.StandsAmong tags := by
  obtain ⟨isOpen, isClosing, fits, before, inner, after, rfl, settled⟩ := isPair
  rcases settled.isStray_or_block with strays | ⟨block, stands⟩
  · exact ⟨_, IsPair.standsAmong before isOpen isClosing fits strays⟩
  · have whole := stands.inside (before ++ [opening]) (closing :: after)
    rw [List.append_assoc, List.singleton_append] at whole
    exact ⟨block, whole⟩

end Pairs

/-! ### The tags of a text -/

theorem Piece.source_ne_nil_of_mem {α : Type} {recognise : Recogniser α} {found : α} {source : Text}
    (before : Option Char) (skip : Nat) (text : Text)
    (member : token found source ∈ cutAfter recognise before skip text) : source ≠ [] := by
  fun_induction cutAfter recognise before skip text with
  | case1 before skip => cases member
  | case2 before skip c cs ih => exact ih member
  | case3 before c cs other length recognised ih =>
      rcases List.mem_cons.mp member with same | later
      · cases same
        exact List.cons_ne_nil _ _
      · exact ih later
  | case4 before c cs unrecognised ih =>
      rcases List.mem_cons.mp member with same | later
      · cases same
      · exact ih later

namespace BlockMarkup

variable (markup : BlockMarkup) (text : Text)

theorem inOrder_parts : InOrder (Part.placed 0 (markup.parts text)) := by
  refine (inOrder_placed 0 fun tag member => ?_).1
  obtain ⟨piece, inCut, same⟩ := List.mem_map.mp (mem_tagsIn.mp member)
  cases piece with
  | plain c => cases same
  | token form source =>
      cases same
      exact Piece.source_ne_nil_of_mem none 0 text inCut

theorem tagsIn_parts : tagsIn (Part.placed 0 (markup.parts text)) = markup.tags text := by
  rw [Part.tagsIn_placed, ← tags_eq_placedTags]

theorem start_lt_tags : (markup.tags text).Pairwise fun first second => first.start < second.start := by
  rw [← tagsIn_parts]
  exact markup.inOrder_parts text

variable {markup text}

/-- The blocks of a scan are the pairs that no tag opens in. -/
theorem mem_blocks_scan_iff {block : Block} :
    block ∈ (markup.scan text).blocks ↔ IsPair (markup.tags text) block.opening block.closing ∧
      ∀ tag ∈ markup.tags text, block.opening.start < tag.start → tag.start < block.closing.start →
        tag.isOpen = false := by
  have inOrder := markup.inOrder_parts text
  have isTags := markup.tagsIn_parts text
  rw [scan, Block.mem_blocks_iff]
  constructor
  · intro stands
    refine ⟨stands.isPair, fun tag member afterOpening beforeClosing => ?_⟩
    obtain ⟨-, before, rest, split, closes⟩ := Block.standsAmong_iff.mp stands
    obtain ⟨inner, after, rfl, -, -, strays⟩ := Block.closesIn_iff.mp closes
    rw [← isTags] at split member
    exact (strays tag (inOrder.mem_between split member afterOpening beforeClosing)).1
  · rintro ⟨⟨isOpen, isClosing, fits, before, inner, after, split, settled⟩, closings⟩
    have fromOpening := isTags.trans split
    have fromClosing : tagsIn (Part.placed 0 (markup.parts text)) =
        (before ++ block.opening :: inner) ++ block.closing :: after := by
      simpa using fromOpening
    rw [split]
    refine IsPair.standsAmong before isOpen isClosing fits (settled.isStray_of_closings fun tag member => ?_)
    refine closings tag (by rw [split]; simp [member]) ?_ ?_
    · exact inOrder.start_lt fromOpening (List.mem_append_left _ member)
    · exact inOrder.lt_start fromClosing (by simp [member])

end BlockMarkup

end Covenant
