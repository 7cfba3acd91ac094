import Covenant.Proofs.Numbering.Tokens
import Covenant.Proofs.Template.Filled
import Covenant.Proofs.Template.Placed
import Covenant.Proofs.Word.Embedded

/-!
# Passes that keep markers

Collapsing blank lines, inserting the variables of an item, replacing placeholders and numbering
articles leave markers alone on their lines and keep all of them, when what they insert holds none.
-/

namespace Covenant.Word

open Text (firstLine lastLine isAllBlank)

variable {count : Nat} {text : Text}

/-! ### The character of markers and letter case -/

def isEdge (c : Char) : Bool := c = markerEdge

theorem lacks_isEdge_iff : Lacks isEdge text ↔ markerEdge ∉ text := by
  simp only [Lacks, isEdge, decide_eq_false_iff_not]
  exact ⟨fun lacks member => lacks _ member rfl, fun free c member isMark => free (isMark ▸ member)⟩

/-- No code point of a run has the character of markers as its image. -/
def missesEdge (shift : CaseTable.Shift) : Bool :=
  decide ((shift.last : Int) + shift.delta < markerEdge.toNat) ||
    decide ((markerEdge.toNat : Int) < (shift.first : Int) + shift.delta)

theorem shifted_ne_edge {shifts : List CaseTable.Shift} (misses : shifts.all missesEdge = true)
    {code : Nat} (isOther : code ≠ markerEdge.toNat) :
    CaseTable.shifted shifts code ≠ markerEdge.toNat := by
  rw [CaseTable.shifted]
  split
  · rename_i shift found
    have covers : shift.covers code = true := by simpa using List.find?_some found
    have missesOne := List.all_eq_true.mp misses shift (List.mem_of_find?_eq_some found)
    simp only [CaseTable.Shift.covers, Bool.and_eq_true, decide_eq_true_eq] at covers
    have edgeCode : markerEdge.toNat = 0xE000 := rfl
    simp only [missesEdge, Bool.or_eq_true, decide_eq_true_eq] at missesOne
    omega
  · exact isOther

theorem isEdge_ofNat {code : Nat} (isOther : code ≠ markerEdge.toNat) :
    isEdge (Char.ofNat code) = false := by
  rw [isEdge, decide_eq_false_iff_not]
  intro same
  by_cases valid : code.isValidChar
  · have sameCode := congrArg Char.toNat same
    rw [Char.ofNat, dif_pos valid] at sameCode
    exact isOther sameCode
  · rw [Char.ofNat, dif_neg valid] at same
    exact absurd same (by decide)

theorem toNat_ne_of_isEdge {c : Char} (isOther : isEdge c = false) : c.toNat ≠ markerEdge.toNat := by
  intro same
  have isMark : c = markerEdge := by rw [← Char.ofNat_toNat c, same]; rfl
  simp [isEdge, isMark] at isOther

/-- The character of markers is in no case table. -/
theorem caseless_isEdge : Caseless isEdge where
  lowerChar {c} isOther d member := by
    have misses : CaseTable.lowerShifts.all missesEdge = true := by decide +kernel
    have small : ∀ code < 0x80, isEdge (Char.ofNat code).toLower = false := by decide +kernel
    have dotted : Lacks isEdge ['i', '\u0307'] := by decide
    rw [lowerChar] at member
    split at member
    · rename_i ascii
      rw [List.mem_singleton.mp member, ← Char.ofNat_toNat c]
      exact small _ ascii
    · split at member
      · exact dotted d member
      · rw [List.mem_singleton.mp member]
        exact isEdge_ofNat (shifted_ne_edge misses (toNat_ne_of_isEdge isOther))
  upperChar {c} isOther d member := by
    have misses : CaseTable.upperShifts.all missesEdge = true := by decide +kernel
    have small : ∀ code < 0x80, isEdge (Char.ofNat code).toUpper = false := by decide +kernel
    have expansionsMiss : CaseTable.upperExpansions.all
        (fun entry => entry.2.all fun code => code != markerEdge.toNat) = true := by
      decide +kernel
    rw [upperChar] at member
    split at member
    · rename_i ascii
      rw [List.mem_singleton.mp member, ← Char.ofNat_toNat c]
      exact small _ ascii
    · split at member
      · rename_i codes found
        obtain ⟨code, inCodes, rfl⟩ := List.mem_map.mp member
        obtain ⟨before, after, listed, -⟩ := List.lookup_eq_some_iff.mp found
        have each := List.all_eq_true.mp expansionsMiss (c.toNat, codes) (by rw [listed]; simp)
        exact isEdge_ofNat (by simpa using List.all_eq_true.mp each code inCodes)
      · rw [List.mem_singleton.mp member]
        exact isEdge_ofNat (shifted_ne_edge misses (toNat_ne_of_isEdge isOther))
  sigmas := by decide

/-- A modifier adds no character of markers. -/
theorem free_applyGiven (free : markerEdge ∉ text) (modifier : Option Modifier) :
    markerEdge ∉ Modifier.applyGiven modifier text :=
  lacks_isEdge_iff.mp (Lacks.applyGiven caseless_isEdge (lacks_isEdge_iff.mpr free) modifier)

/-! ### Blank lines -/

/-- A run of line breaks is white space that ends with a line feed. -/
theorem run_eq_or (text : Text) : BlankLines.run text = (0, 0) ∨
    ∃ blanks, isAllBlank blanks = true ∧ text.take (BlankLines.run text).2 = blanks ++ ['\n'] := by
  fun_induction BlankLines.run text with
  | case1 text breaks length same ih =>
      right
      rw [same] at ih
      rcases ih with none | ⟨blanks, allBlank, isRun⟩
      · obtain ⟨rfl, rfl⟩ := Prod.mk.inj none
        exact ⟨[], rfl, rfl⟩
      · exact ⟨'\n' :: blanks, allBlank, congrArg ('\n' :: ·) isRun⟩
  | case2 text breaks length same ih =>
      right
      rw [same] at ih
      rcases ih with none | ⟨blanks, allBlank, isRun⟩
      · obtain ⟨rfl, rfl⟩ := Prod.mk.inj none
        exact ⟨['\r'], rfl, rfl⟩
      · exact ⟨'\r' :: '\n' :: blanks, allBlank, congrArg ('\r' :: '\n' :: ·) isRun⟩
  | case3 text notFeed notReturnFeed => exact .inl rfl

/-- A pass that exchanges every token keeps the markers when each exchange does. -/
theorem Exchangeable.of_cut {α : Type} {recognise : Recogniser α} {Becomes : Piece α → Text → Prop}
    (plain : ∀ c new, Becomes (.plain c) new → new = [c])
    (each : ∀ before rest found length new, recognise before rest = some (found, length) →
      Becomes (.token found (rest.take length)) new → Exchangeable count (rest.take length) new)
    {texts : List Text} (become : List.Forall₂ Becomes (Piece.cut recognise text) texts) :
    Exchangeable count text texts.flatten := by
  have own : ∀ piece ∈ Piece.cut recognise text, ∀ new, Becomes piece new →
      Exchangeable count piece.source new := by
    intro piece member new becomes
    cases piece with
    | plain c =>
        rw [plain c new becomes]
        exact refl [c]
    | token found source =>
        obtain ⟨before, rest, length, recognised, rfl⟩ :=
          Piece.exists_recognised_of_mem none 0 text member
        exact each before rest found length new recognised becomes
  have sources := @Piece.flatMap_source_cut α recognise text
  conv_lhs => rw [← sources]
  generalize Piece.cut recognise text = pieces at become own
  clear sources
  induction become with
  | nil => exact refl []
  | cons becomes later ih =>
      exact (own _ List.mem_cons_self _ becomes).append
        (ih fun piece member => own piece (List.mem_cons_of_mem _ member))

theorem Exchangeable.of_substitute {α : Type} {recognise : Recogniser α} {exchange : α → Text → Text}
    (each : ∀ before rest found length, recognise before rest = some (found, length) →
      Exchangeable count (rest.take length) (exchange found (rest.take length))) (text : Text) :
    Exchangeable count text (Piece.substitute exchange (Piece.cut recognise text)) := by
  rw [Piece.substitute, List.flatMap_def]
  refine .of_cut (fun c new becomes => becomes.symm)
    (fun before rest found length new recognised becomes => ?_)
    (List.forall₂_map_right_iff.mpr (List.forall₂_same.mpr fun piece _ => rfl))
  rw [← becomes]
  exact each before rest found length recognised

theorem exchangeable_collapse (text : Text) : Exchangeable count text (BlankLines.collapse text) := by
  refine .of_substitute (fun before rest _ length recognised => ?_) text
  simp only [BlankLines.recognise, Option.ite_none_right_eq_some, Option.some.injEq, Prod.mk.injEq,
    true_and] at recognised
  obtain ⟨many, rfl⟩ := recognised
  rcases run_eq_or rest with none | ⟨blanks, allBlank, isRun⟩
  · rw [none] at many
    omega
  · rw [isRun]
    exact .of_blanks allBlank

/-! ### Variables and placeholders -/

/-- What is enclosed, with its opening and closing. -/
theorem take_of_enclosed? {opening closing content rest : Text} {allowed : Char → Bool} {length : Nat}
    (enclosed : enclosed? opening closing allowed rest = some (content, length)) :
    rest.take length = opening ++ (content ++ closing) ∧ ∀ c ∈ content, allowed c = true := by
  obtain ⟨after, rfl, -, isAllowed, rfl⟩ := enclosed?_eq_some enclosed
  refine ⟨?_, isAllowed⟩
  have whole : opening ++ (content ++ (closing ++ after)) =
      (opening ++ (content ++ closing)) ++ after := by simp
  have size : opening.length + content.length + closing.length =
      (opening ++ (content ++ closing)).length := by simp [Nat.add_assoc]
  rw [whole, size, List.take_left]

/-- Delimiters, at least one. -/
def AreDelimiters (text : Text) : Prop := text ≠ [] ∧ ∀ c ∈ text, isDelimiter c = true

instance : DecidablePred AreDelimiters := fun text =>
  have := List.decidableBAll (fun c => isDelimiter c = true) text
  inferInstanceAs (Decidable (text ≠ [] ∧ ∀ c ∈ text, isDelimiter c = true))

theorem AreDelimiters.isEnclosed {opening closing : Text} (opens : AreDelimiters opening)
    (closes : AreDelimiters closing) (content : Text) : IsEnclosed (opening ++ (content ++ closing)) := by
  obtain ⟨c, start, rfl⟩ := List.exists_cons_of_ne_nil opens.1
  obtain ⟨stop, d, rfl⟩ := (List.eq_nil_or_concat' closing).resolve_left closes.1
  exact ⟨c, start ++ (content ++ stop), d, by simp, opens.2 c (by simp), closes.2 d (by simp)⟩

theorem IsEnclosed.of_isBracketed {source : Text} (bracketed : IsBracketed source) : IsEnclosed source := by
  obtain ⟨body, -, rfl⟩ := bracketed
  exact ⟨'[', '[' :: (body ++ [']']), ']', by simp, rfl, rfl⟩

/-- A token on one line gives way to a text without markers. -/
theorem Exchangeable.of_enclosed? {opening closing content rest new : Text} {allowed : Char → Bool}
    {length : Nat} (enclosed : enclosed? opening closing allowed rest = some (content, length))
    (opens : AreDelimiters opening) (closes : AreDelimiters closing) (oneLine : allowed '\n' = false)
    (free : markerEdge ∉ new) : Exchangeable count (rest.take length) new := by
  obtain ⟨isSource, isAllowed⟩ := take_of_enclosed? enclosed
  rw [isSource]
  have isToken := opens.isEnclosed closes content
  refine .of_enclosed isToken free (isToken.free_of_noBreak fun isBreak => ?_)
  rcases List.mem_append.mp isBreak with inOpening | isBreak
  · exact ne_break_of_isDelimiter (opens.2 _ inOpening) rfl
  · rcases List.mem_append.mp isBreak with inContent | inClosing
    · rw [isAllowed _ inContent] at oneLine
      cases oneLine
    · exact ne_break_of_isDelimiter (closes.2 _ inClosing) rfl

/-- The texts among values hold no character of markers. -/
def AreFreeValues (values : Members) : Prop :=
  ∀ pair ∈ values, ∀ content, pair.2 = .text content → markerEdge ∉ content

theorem exchangeable_renderItem {values : Members} (free : AreFreeValues values) {body : Text}
    (rendered : Loop.renderItem values body = .ok text) : Exchangeable count body text := by
  have freeValue {name : Text} {content : Text}
      (found : Loop.valueOf? values name = some (.text content)) : markerEdge ∉ content := by
    obtain ⟨pair, isPair, isText⟩ := Option.map_eq_some_iff.mp found
    exact free pair (List.mem_reverse.mp (List.mem_of_find?_eq_some isPair)) content isText
  obtain ⟨texts, become, rfl⟩ := Loop.exists_texts_of_renderItem rendered
  refine .of_cut (fun c new becomes => ?_) (fun before rest content length new recognised becomes => ?_)
    become
  · exact (Value.text.inj (Except.ok.inj becomes)).symm
  · have exchange {stored : Text} (stays : markerEdge ∉ stored) :
        Exchangeable count (rest.take length) stored :=
      .of_enclosed? recognised (by decide) (by decide) rfl stays
    simp only [Loop.pieceValue] at becomes
    split at becomes
    · rename_i value modifier found _
      cases value with
      | text stored =>
          simp only [Loop.modified, Except.ok.injEq, Value.text.injEq] at becomes
          rw [← becomes]
          exact exchange (free_applyGiven (freeValue found) (some modifier))
      | _ =>
          simp only [Loop.modified] at becomes
          split at becomes <;> cases becomes
    · rename_i value found _
      obtain rfl := Except.ok.inj becomes
      exact exchange (freeValue found)
    · obtain rfl := Value.text.inj (Except.ok.inj becomes)
      exact .refl _

/-- Neither the names nor the texts of a context hold the character of markers. -/
def IsFreeContext (context : ContextMap) : Prop :=
  ∀ entry ∈ context.entries, markerEdge ∉ entry.name ∧ markerEdge ∉ entry.text

instance : DecidablePred IsFreeContext := fun context =>
  List.decidableBAll (fun entry : Entry => markerEdge ∉ entry.name ∧ markerEdge ∉ entry.text)
    context.entries

theorem exists_of_lookup {context : ContextMap} {name text : Text}
    (found : context.lookup name = some text) :
    ∃ entry ∈ context.entries, Text.lower entry.name = Text.lower name ∧ entry.text = text := by
  have search (entries : List Entry)
      (found : (ContextMap.entryWithKey? (Text.lower name) entries).map (·.text) = some text) :
      ∃ entry ∈ entries, Text.lower entry.name = Text.lower name ∧ entry.text = text := by
    induction entries with
    | nil => cases found
    | cons entry entries ih =>
        rw [ContextMap.entryWithKey?] at found
        split at found
        · rename_i own
          exact ⟨entry, List.mem_cons_self, entry.key_eq ▸ own, Option.some.inj found⟩
        · obtain ⟨other, member, same⟩ := ih found
          exact ⟨other, List.mem_cons_of_mem entry member, same⟩
  exact search context.entries found

namespace IsFreeContext

variable {context : ContextMap}

theorem free_of_lookup (free : IsFreeContext context) {name text : Text}
    (found : context.lookup name = some text) : markerEdge ∉ text := by
  obtain ⟨entry, member, -, rfl⟩ := exists_of_lookup found
  exact (free entry member).2

theorem lookup_marker (free : IsFreeContext context) (index : Nat) :
    context.lookup (marker index) = none := by
  by_contra found
  obtain ⟨text, found⟩ := Option.ne_none_iff_exists'.mp found
  obtain ⟨entry, member, sameKey, -⟩ := exists_of_lookup found
  have lowered := Lacks.lower caseless_isEdge (lacks_isEdge_iff.mpr (free entry member).1)
  rw [sameKey] at lowered
  -- lower case leaves the first character of the marker
  have kept : markerEdge ∈ lowerChar markerEdge := by decide
  have noSigma : markerEdge ≠ 'Σ' := by decide
  have starts : markerEdge ∈ Text.lower (marker index) := by
    rw [Text.lower, marker, List.cons_append, List.cons_append, Text.lowerAfter, if_neg noSigma]
    exact List.mem_append_left _ kept
  exact lacks_isEdge_iff.mp lowered starts

end IsFreeContext

section Placeholders

variable {context : ContextMap}

/-- A marker between double braces, where it may stand on a line of its own, is no name. -/
theorem read_marker_ne_value (free : IsFreeContext context) (index : Nat) (style : BracketStyle)
    (value : Text) : (Placeholder.mk style (marker index)).read context ≠ .value value := by
  have noModifier : Modifier.split (marker index) = (none, marker index) := by
    rw [Modifier.split, trim_marker]
    rfl
  rw [Placeholder.read]
  split
  · exact Placeholder.Reading.noConfusion
  · rw [noModifier]
    dsimp only
    rw [free.lookup_marker index]
    exact Placeholder.Reading.noConfusion

theorem free_of_read (free : IsFreeContext context) {placeholder : Placeholder} {value : Text}
    (isRead : placeholder.read context = .value value) : markerEdge ∉ value := by
  rw [Placeholder.read] at isRead
  split at isRead
  · cases isRead
  · obtain ⟨modifier, name⟩ := Modifier.split placeholder.content
    dsimp only at isRead
    split at isRead
    · rename_i found
      obtain rfl := Placeholder.Reading.value.inj isRead
      exact free_applyGiven (free.free_of_lookup found) _
    · cases isRead

theorem legacyName?_eq_trim {content name : Text} (named : Placeholder.legacyName? content = some name)
    (member : markerEdge ∈ content) : name = Text.trim content ∧ '\n' ∉ name := by
  have stays : markerEdge ∈ Text.trim content := Text.mem_trim_of_not_blank member rfl
  rw [Placeholder.legacyName?, if_neg (by
    rw [List.isEmpty_iff]
    exact List.ne_nil_of_mem stays)] at named
  split at named
  · cases named
  · rename_i oneLine
    obtain rfl := Option.some.inj named
    refine ⟨rfl, fun isBreak => oneLine (List.any_eq_true.mpr ⟨_, isBreak, rfl⟩)⟩

theorem exchangeable_legacy (free : IsFreeContext context) {rest name value : Text} {length : Nat}
    (recognised : Placeholder.legacy? rest = some (name, length))
    (isRead : (Placeholder.mk .legacy name).read context = .value value) :
    Exchangeable count (rest.take length) value := by
  obtain ⟨⟨content, length⟩, enclosed, named⟩ := Option.bind_eq_some_iff.mp recognised
  obtain ⟨found, isName, same⟩ := Option.bind_eq_some_iff.mp named
  obtain ⟨rfl, rfl⟩ := Prod.mk.inj (Option.some.inj same)
  obtain ⟨isSource, -⟩ := take_of_enclosed? enclosed
  rw [isSource]
  have opens : AreDelimiters "\x7b\x7b" := by decide
  have closes : AreDelimiters "\x7d\x7d" := by decide
  refine .of_enclosed (opens.isEnclosed closes content) (free_of_read free isRead)
    fun alone member => ?_
  have inContent : markerEdge ∈ content := by
    have noBrace : markerEdge ≠ '\x7b' ∧ markerEdge ≠ '\x7d' := by decide
    simpa [noBrace] using member
  obtain ⟨rfl, oneLine⟩ := legacyName?_eq_trim isName inContent
  have inner : MarkersAlone count ('\x7b' :: (content ++ ['\x7d'])) :=
    (Embeds.of_delimiters rfl rfl
      (show MarkersAlone count ('\x7b' :: (('\x7b' :: (content ++ ['\x7d'])) ++ ['\x7d'])) by
        simpa using alone)).alone
  have aloneContent := (Embeds.of_delimiters rfl rfl inner).alone
  have aloneName := markersAlone_trim_iff.1.mp aloneContent
  obtain ⟨index, -, isMarker⟩ := aloneName (Text.trim content)
    (by rw [Text.lines_of_noBreak oneLine]; exact List.mem_singleton_self _)
    (Text.mem_trim_of_not_blank inContent rfl)
  rw [Text.trim_trim] at isMarker
  rw [isMarker] at isRead
  exact read_marker_ne_value free index _ value isRead

theorem exchangeable_resolve (free : IsFreeContext context) (text : Text) :
    Exchangeable count text (Placeholder.resolve context text) := by
  refine .of_substitute (fun before rest placeholder length recognised => ?_) text
  cases isRead : placeholder.read context with
  | structural => exact .refl _
  | unknown name => exact .refl _
  | value value =>
      have valueFree := free_of_read free isRead
      simp only [Placeholder.recognise, Option.or_eq_some_iff, Option.map_eq_some_iff, Prod.mk.injEq,
        Prod.exists] at recognised
      rcases recognised with ⟨content, _, enclosed, rfl, rfl⟩ | ⟨-, ⟨content, _, isLegacy, rfl, rfl⟩ |
        ⟨-, ⟨content, _, enclosed, rfl, rfl⟩ | ⟨-, ⟨content, _, enclosed, rfl, rfl⟩ |
        ⟨-, content, _, enclosed, rfl, rfl⟩⟩⟩⟩
      · exact .of_enclosed? enclosed (by decide) (by decide) rfl valueFree
      · exact exchangeable_legacy free isLegacy isRead
      · exact .of_enclosed? enclosed (by decide) (by decide) rfl valueFree
      · exact .of_enclosed? enclosed (by decide) (by decide) rfl valueFree
      · exact .of_enclosed? enclosed (by decide) (by decide) rfl valueFree

end Placeholders

/-! ### Numbers -/

section Numbers

open NumberingMarker (recognise Accepted Taken isSpaceOrTab)

variable {source rest : Text}

theorem free_of_accepted (accepted : Accepted source) : markerEdge ∉ source := by
  have all : NumberingMarker.letters.all
      (fun letter => (NumberingMarker.formsOf letter).all (· ≠ markerEdge)) = true := by
    decide +kernel
  obtain ⟨spelling, member, word, spells, ⟨first, last, firstBlank, lastBlank⟩⟩ := accepted
  have wordFree : markerEdge ∉ word := by
    intro inWord
    obtain ⟨letter, inSpelling, isForm⟩ := spells.exists_letter inWord
    have forms := List.all_eq_true.mp all letter (NumberingMarker.mem_letters member letter inSpelling)
    have own := List.all_eq_true.mp forms markerEdge (NumberingMarker.mem_formsOf isForm)
    simp at own
  have noBracket : markerEdge ≠ '[' ∧ markerEdge ≠ ']' := by decide
  simp [noBracket, wordFree, edge_not_mem_of_isAllBlank (List.all_eq_true.mpr firstBlank),
    edge_not_mem_of_isAllBlank (List.all_eq_true.mpr lastBlank)]

theorem free_of_taken (taken : Taken rest source) : markerEdge ∉ source := by
  have spaceFree {spaces : Text} (allSpace : ∀ c ∈ spaces, isSpaceOrTab c = true) :
      markerEdge ∉ spaces := fun member => absurd (allSpace _ member) (by decide)
  cases taken with
  | marker accepted => exact free_of_accepted accepted
  | line firstSpace accepted lastSpace ends =>
      have endFree : ∀ lineEnd : Text, lineEnd = ['\n'] ∨ lineEnd = ['\r', '\n'] ∨ lineEnd = [] ∧ rest = [] →
          markerEdge ∉ lineEnd := by
        rintro _ (rfl | rfl | ⟨rfl, -⟩) <;> decide
      simp [spaceFree firstSpace, free_of_accepted accepted, spaceFree lastSpace, endFree _ ends]

/-- What is written for a marker holds no character of markers. -/
theorem free_of_write {label : Text} (free : markerEdge ∉ label) (state : NumberingState)
    (marker : NumberingMarker) : markerEdge ∉ Numbering.write label state marker := by
  have number (n : Nat) : markerEdge ∉ Text.ofNat n :=
    fun member => absurd (isDigit_of_mem_ofNat member) (by decide)
  have others : markerEdge ≠ ' ' ∧ markerEdge ≠ '.' := by decide
  cases marker with
  | article =>
      rw [Numbering.write, Numbering.label]
      split
      · exact number _
      · simp [free, others, number]
  | subarticle => simp [Numbering.write, others, number]
  | articleNumber => exact number _
  | reset => exact List.not_mem_nil

/-- A numbering marker gives way to what is written for it. -/
theorem exchangeable_write {label : Text} (free : markerEdge ∉ label) (accepted : Accepted source)
    (state : NumberingState) (marker : NumberingMarker) :
    Exchangeable count source (Numbering.write label state marker) :=
  .of_enclosed (.of_isBracketed accepted.isBracketed) (free_of_write free state marker)
    fun _ => free_of_accepted accepted

theorem IsEnclosed.not_startsLine (enclosed : IsEnclosed source) : ¬ StartsLine source.getLast? := by
  obtain ⟨opening, inner, closing, rfl, -, closes⟩ := enclosed
  have ends : (opening :: (inner ++ [closing])).getLast? = some closing := by
    rw [← List.cons_append]
    exact List.getLast?_concat ..
  rw [ends]
  rintro (none | isBreak)
  · cases none
  · exact ne_break_of_isDelimiter closes (Option.some.inj isBreak)

theorem lastLine_concat_of_startsLine {c : Char} (starts : StartsLine (some c)) (first : Text) :
    lastLine (first ++ [c]) = [] := by
  rcases starts with none | isBreak
  · cases none
  · rw [Option.some.inj isBreak, Text.lastLine_append, if_pos (List.mem_singleton_self _)]
    rfl

/-- What is taken off with the end of its line leaves the markers behind it as they are. -/
theorem keeps_behind_taken (taken : Taken rest source) (isLine : ¬ Accepted source)
    (alone : MarkersAlone count (source ++ rest)) :
    MarkersAlone count rest ∧ tablesIn count rest = tablesIn count (source ++ rest) := by
  have free := free_of_taken taken
  cases taken with
  | marker accepted => exact absurd accepted isLine
  | @line first marker last lineEnd firstSpace accepted lastSpace ends =>
      have broken : (∃ front, first ++ (marker ++ (last ++ lineEnd)) = front ++ ['\n']) ∨ rest = [] := by
        rcases ends with rfl | rfl | ⟨-, rfl⟩
        · exact .inl ⟨first ++ (marker ++ last), by simp⟩
        · exact .inl ⟨first ++ (marker ++ (last ++ ['\r'])), by simp⟩
        · exact .inr rfl
      rcases broken with ⟨front, whole⟩ | rfl
      · rw [whole] at alone free ⊢
        rw [List.append_assoc, List.singleton_append] at alone ⊢
        rw [tablesIn_break, tablesIn_of_free fun member => free (List.mem_append_left _ member),
          List.nil_append]
        exact ⟨(markersAlone_break_iff.mp alone).2, rfl⟩
      · rw [List.append_nil, tablesIn_of_free free, tablesIn_of_free List.not_mem_nil]
        exact ⟨markersAlone_of_free List.not_mem_nil, rfl⟩

/-- A line of its own can be taken off. -/
theorem keeps_without_taken {first : Text} (noLine : lastLine first = []) (taken : Taken rest source)
    (isLine : ¬ Accepted source) (alone : MarkersAlone count (first ++ (source ++ rest))) :
    MarkersAlone count (first ++ rest) ∧
      tablesIn count (first ++ rest) = tablesIn count (first ++ (source ++ rest)) := by
  have apart (text : Text) : Apart first text := .inr (.inl (by rw [noLine]; rfl))
  obtain ⟨aloneFirst, aloneBehind⟩ := (apart _).markersAlone_append_iff.mp alone
  obtain ⟨aloneRest, same⟩ := keeps_behind_taken taken isLine aloneBehind
  refine ⟨(apart rest).markersAlone_append_iff.mpr ⟨aloneFirst, aloneRest⟩, ?_⟩
  rw [(apart rest).tablesIn_append, same, (apart _).tablesIn_append]

/-- Numbering keeps the markers.  `first` is what has been written; a line of the text begins only where
`first` ends with a line, so a line that is taken off leaves nothing of it. -/
theorem keeps_numberPieces {label : Text} (free : markerEdge ∉ label) {text : Text} (first : Text)
    (before : Option Char) (starts : StartsLine before → lastLine first = []) (state : NumberingState)
    (alone : MarkersAlone count (first ++ text)) :
    MarkersAlone count (first ++ (Numbering.numberPieces label state
        (Piece.cutAfter recognise before 0 text)).1) ∧
      tablesIn count (first ++ (Numbering.numberPieces label state
        (Piece.cutAfter recognise before 0 text)).1) = tablesIn count (first ++ text) := by
  -- a token takes more than one character off, so the induction is on the length of the text
  induction size : text.length using Nat.strong_induction_on generalizing first text before state with
  | h size ih =>
      subst size
      cases recognised : recognise before text with
      | none =>
          cases text with
          | nil => exact ⟨alone, rfl⟩
          | cons c text =>
              rw [NumberingMarker.cutAfter_of_unrecognised recognised]
              have later := ih text.length (by simp) (first ++ [c]) (some c)
                (fun starts => lastLine_concat_of_startsLine starts first) state
                (by simpa using alone) rfl
              simpa [Numbering.numberPieces] using later
      | some found =>
          obtain ⟨marker, length⟩ := found
          obtain ⟨source, rest, taken, rfl, rfl⟩ := NumberingMarker.taken_of_recognise recognised
          rw [NumberingMarker.cutAfter_of_recognised taken.ne_nil recognised, Numbering.numberPieces]
          have shorter : rest.length < (source ++ rest).length := by
            have filled := List.length_pos_iff.mpr taken.ne_nil
            simp only [List.length_append]
            omega
          by_cases accepted : Accepted source
          · obtain ⟨aloneNew, same⟩ :=
              exchangeable_write free accepted (state.after marker) marker first rest alone
            rw [← List.append_assoc] at aloneNew same
            have notStart := (IsEnclosed.of_isBracketed accepted.isBracketed).not_startsLine
            obtain ⟨aloneLater, sameLater⟩ := ih rest.length shorter _ _
              (fun starts => absurd starts notStart) (state.after marker) aloneNew rfl
            rw [List.append_assoc] at aloneLater sameLater
            exact ⟨aloneLater, sameLater.trans same⟩
          · obtain ⟨startsLine, rfl⟩ :=
              (NumberingMarker.accepted_or_reset recognised).resolve_left accepted
            have noLine := starts startsLine
            obtain ⟨aloneNew, same⟩ := keeps_without_taken noLine taken accepted alone
            obtain ⟨aloneLater, sameLater⟩ := ih rest.length shorter first source.getLast?
              (fun _ => noLine) (state.after .reset) aloneNew rfl
            exact ⟨aloneLater, sameLater.trans same⟩

/-- Numbering keeps the markers of tables. -/
theorem keeps_number {label text : Text} (free : markerEdge ∉ label) (state : NumberingState)
    (alone : MarkersAlone count text) :
    MarkersAlone count (Numbering.number label state text).1 ∧
      tablesIn count (Numbering.number label state text).1 = tablesIn count text :=
  keeps_numberPieces free [] none (fun _ => rfl) state alone

end Numbers

end Covenant.Word
