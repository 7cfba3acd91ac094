import Covenant.Console.Markup
import Covenant.Proofs.Outcome
import Covenant.Proofs.Template.Bracket
import Covenant.Proofs.Template.Part

/-!
# Escaped messages in console lines

A line for the console fails when a closing tag in it closes nothing.  In an escaped text every tag has
an odd number of backslashes in front of it and counts as text, and escaping makes no tag out of what
was none: a bracket that closes a tag closes it without the backslashes too.  So a message in red is
always shown, whatever it says, and plain words in front of it are shown in front.
-/

namespace Covenant.Markup

/-! ### Tags and the backslashes in front of them -/

def backslashes (count : Nat) : Text := List.replicate count '\\'

theorem backslashes_succ (count : Nat) : backslashes (count + 1) = '\\' :: backslashes count := rfl

theorem backslashes_append (first second : Nat) :
    backslashes first ++ backslashes second = backslashes (first + second) :=
  List.replicate_append_replicate

/-- A text that makes a tag when it stands in brackets. -/
structure IsContent (content : Text) : Prop where
  starts : content.head?.any isTagStart = true
  free : BracketFree content

theorem isBracket_of_isTagStart {c : Char} (starts : isTagStart c = true) : isBracket c = false := by
  by_contra isMark
  rcases isBracket_iff.mp (by simpa using isMark) with rfl | rfl
  · exact absurd starts (by decide)
  · exact absurd starts (by decide)

theorem tag?_of_ne {c : Char} (noOpening : c ≠ '[') (rest : Text) : tag? (c :: rest) = none := by
  unfold tag?
  split
  · rename_i same
    exact absurd (List.cons.inj same).1 noOpening
  · rfl

theorem tag?_of_isContent {content : Text} (isContent : IsContent content) (rest : Text) :
    tag? ('[' :: (content ++ ']' :: rest)) = some content := by
  obtain ⟨starts, free⟩ := isContent
  cases content with
  | nil => cases starts
  | cons c more =>
      have isMore : (more ++ ']' :: rest).takeWhile (fun c => !isBracket c) = more :=
        BracketFree.takeWhile_closing (fun d member => free d (List.mem_cons_of_mem c member)) rest
      have starts : isTagStart c = true := by simpa using starts
      simp [tag?, isMore, starts]

theorem exists_of_tag? {text content : Text} (found : tag? text = some content) :
    IsContent content ∧ ∃ rest, text = '[' :: (content ++ ']' :: rest) := by
  unfold tag? at found
  split at found
  · rename_i c rest
    simp only [Option.ite_none_right_eq_some, Bool.and_eq_true, decide_eq_true_eq, Option.some.injEq]
      at found
    obtain ⟨⟨starts, closes⟩, rfl⟩ := found
    obtain ⟨behind, isBehind⟩ := List.head?_eq_some_iff.mp closes
    refine ⟨⟨by simpa using starts, ?_⟩, behind, ?_⟩
    · intro d member
      rcases List.mem_cons.mp member with rfl | inMore
      · exact isBracket_of_isTagStart starts
      · exact bracketFree_takeWhile rest d inMore
    · have whole := List.prefix_iff_eq_append.mp (List.takeWhile_prefix (fun c => !isBracket c) (l := rest))
      rw [List.cons_append, ← isBehind, whole]
  · cases found

/-- Behind an opening bracket there is a tag if a tag may start there, and the next bracket closes it. -/
theorem tag?_isSome_iff {rest : Text} :
    (tag? ('[' :: rest)).isSome = true ↔
      rest.head?.any isTagStart = true ∧ rest.find? isBracket = some ']' := by
  constructor
  · intro isSome
    obtain ⟨content, found⟩ := Option.isSome_iff_exists.mp isSome
    obtain ⟨isContent, behind, whole⟩ := exists_of_tag? found
    obtain rfl := (List.cons.inj whole).2
    refine ⟨?_, ?_⟩
    · have starts := isContent.starts
      cases content with
      | nil => cases starts
      | cons c more => exact starts
    · have noMark : content.find? isBracket = none := by
        rw [List.find?_eq_none]
        intro c member
        simp [isContent.free c member]
      rw [List.find?_append, noMark, List.find?_cons]
      rfl
  · rintro ⟨starts, closes⟩
    obtain ⟨-, content, behind, rfl, others⟩ := List.find?_eq_some_iff_append.mp closes
    have free : BracketFree content := fun c member => by simpa using others c member
    have isContent : IsContent content := by
      refine ⟨?_, free⟩
      cases content with
      | nil => simp [isTagStart] at starts
      | cons c more => exact starts
    rw [tag?_of_isContent isContent]
    rfl

/-! ### Pieces of a line -/

theorem recognise_ignoresBefore : IgnoresBefore EscapedTag.recognise := fun _ _ _ => rfl

theorem recognise_run (count : Nat) (rest : Text) (stops : rest.head? ≠ some '\\') :
    EscapedTag.recognise none (backslashes count ++ rest) =
      (tag? rest).map fun content => (⟨count, content⟩, count + content.length + 2) := by
  have noMore : rest.takeWhile (· = '\\') = [] := by
    cases rest with
    | nil => rfl
    | cons c rest => exact List.takeWhile_cons_of_neg (by simpa using stops)
  have run : (backslashes count ++ rest).takeWhile (· = '\\') = backslashes count := by
    rw [List.takeWhile_append_of_pos (by simp [backslashes]), noMore, List.append_nil]
  have size : (backslashes count).length = count := List.length_replicate
  have behind : (backslashes count ++ rest).drop count = rest := List.drop_left' size
  rw [EscapedTag.recognise]
  simp only [run, size, behind]

/-- The piece for a tag, with the backslashes in front of it. -/
def tagPiece (count : Nat) (content : Text) : Piece EscapedTag :=
  .token ⟨count, content⟩ (backslashes count ++ '[' :: (content ++ [']']))

theorem pieces_tag (count : Nat) {content : Text} (isContent : IsContent content) (rest : Text) :
    pieces (backslashes count ++ '[' :: (content ++ ']' :: rest)) =
      tagPiece count content :: pieces rest := by
  have whole : backslashes count ++ '[' :: (content ++ ']' :: rest) =
      (backslashes count ++ '[' :: (content ++ [']'])) ++ rest := by
    simp
  have recognised := recognise_run count ('[' :: (content ++ ']' :: rest)) (by simp)
  rw [tag?_of_isContent isContent, whole] at recognised
  rw [pieces, whole]
  refine Piece.cut_of_recognised recognise_ignoresBefore rest (by simp) (recognised.trans ?_)
  simp [backslashes]
  omega

theorem pieces_char (count : Nat) {c : Char} (notBackslash : c ≠ '\\') {rest : Text}
    (noTag : tag? (c :: rest) = none) :
    pieces (backslashes count ++ c :: rest) =
      (backslashes count).map .plain ++ .plain c :: pieces rest := by
  induction count with
  | zero =>
      refine Piece.cut_of_unrecognised recognise_ignoresBefore ?_
      have recognised := recognise_run 0 (c :: rest) (by simpa using notBackslash)
      rw [noTag] at recognised
      exact recognised
  | succ count ih =>
      have recognised := recognise_run (count + 1) (c :: rest) (by simpa using notBackslash)
      rw [noTag, backslashes_succ, List.cons_append] at recognised
      rw [pieces, backslashes_succ, List.cons_append,
        Piece.cut_of_unrecognised recognise_ignoresBefore recognised, ← pieces, ih]
      rfl

theorem pieces_backslashes (count : Nat) : pieces (backslashes count) = (backslashes count).map .plain := by
  induction count with
  | zero => rfl
  | succ count ih =>
      have recognised := recognise_run (count + 1) [] (by simp)
      rw [List.append_nil, backslashes_succ] at recognised
      rw [pieces, backslashes_succ, Piece.cut_of_unrecognised recognise_ignoresBefore recognised,
        ← pieces, ih]
      rfl

/-- A text as it is read: runs of backslashes, each with a tag or another character behind it. -/
inductive Scanned : Text → Prop where
  | run (count : Nat) : Scanned (backslashes count)
  | tag (count : Nat) {content rest : Text} (isContent : IsContent content) (later : Scanned rest) :
      Scanned (backslashes count ++ '[' :: (content ++ ']' :: rest))
  | char (count : Nat) {c : Char} {rest : Text} (notBackslash : c ≠ '\\')
      (noTag : tag? (c :: rest) = none) (later : Scanned rest) :
      Scanned (backslashes count ++ c :: rest)

theorem exists_backslashes (text : Text) :
    ∃ count rest, text = backslashes count ++ rest ∧ rest.head? ≠ some '\\' := by
  induction text with
  | nil => exact ⟨0, [], rfl, by simp⟩
  | cons c text ih =>
      by_cases isBackslash : c = '\\'
      · obtain ⟨count, rest, rfl, stops⟩ := ih
        exact ⟨count + 1, rest, by rw [isBackslash, backslashes_succ, List.cons_append], stops⟩
      · exact ⟨0, c :: text, rfl, by simpa using isBackslash⟩

theorem scanned (text : Text) : Scanned text := by
  induction size : text.length using Nat.strong_induction_on generalizing text with
  | h size ih =>
      obtain ⟨count, rest, rfl, stops⟩ := exists_backslashes text
      cases rest with
      | nil =>
          rw [List.append_nil]
          exact .run count
      | cons c rest =>
          cases found : tag? (c :: rest) with
          | none =>
              refine .char count (by simpa using stops) found (ih rest.length ?_ rest rfl)
              rw [← size]
              simp
              omega
          | some content =>
              obtain ⟨isContent, behind, whole⟩ := exists_of_tag? found
              rw [whole] at size ⊢
              refine .tag count isContent (ih behind.length ?_ behind rfl)
              rw [← size]
              simp
              omega

/-! ### Escaping -/

/-- A text with an odd number of backslashes in front of each of its tags. -/
def protect (text : Text) : Text :=
  Piece.substitute (fun tag _ => List.replicate (2 * tag.backslashes + 1) '\\' ++ tag.source) (pieces text)

theorem substitute_plains (exchange : EscapedTag → Text → Text) (text : Text)
    (rest : List (Piece EscapedTag)) :
    Piece.substitute exchange (text.map .plain ++ rest) = text ++ Piece.substitute exchange rest := by
  rw [Piece.substitute, List.flatMap_append, List.flatMap_map]
  congr 1
  exact List.flatMap_singleton' text

theorem protect_run (count : Nat) : protect (backslashes count) = backslashes count := by
  have whole := substitute_plains
    (fun tag _ => List.replicate (2 * tag.backslashes + 1) '\\' ++ tag.source) (backslashes count) []
  rw [List.append_nil] at whole
  rw [protect, pieces_backslashes, whole]
  exact List.append_nil _

theorem protect_tag (count : Nat) {content : Text} (isContent : IsContent content) (rest : Text) :
    protect (backslashes count ++ '[' :: (content ++ ']' :: rest)) =
      backslashes (2 * count + 1) ++ '[' :: (content ++ ']' :: protect rest) := by
  rw [protect, pieces_tag count isContent, tagPiece, Piece.substitute, List.flatMap_cons,
    ← Piece.substitute, ← protect]
  simp [EscapedTag.source, backslashes]

theorem protect_char (count : Nat) {c : Char} (notBackslash : c ≠ '\\') {rest : Text}
    (noTag : tag? (c :: rest) = none) :
    protect (backslashes count ++ c :: rest) = backslashes count ++ c :: protect rest := by
  rw [protect, pieces_char count notBackslash noTag, substitute_plains, Piece.substitute,
    List.flatMap_cons, ← Piece.substitute, ← protect]
  rfl

/-- A single backslash at the end is doubled. -/
theorem exists_escape_eq (text : Text) : ∃ count, escape text = protect text ++ backslashes count := by
  rw [escape, ← protect]
  split
  · exact ⟨0, (List.append_nil _).symm⟩
  · exact ⟨1, rfl⟩
  · exact ⟨0, (List.append_nil _).symm⟩

section Behind

/-- What stands behind an escaped text: backslashes that it ends with, and a closing tag. -/
def closing (count : Nat) (content : Text) : Text := backslashes count ++ '[' :: (content ++ [']'])

variable {count : Nat} {content : Text}

theorem find?_backslashes (count : Nat) (rest : Text) :
    (backslashes count ++ rest).find? isBracket = rest.find? isBracket := by
  have noMark : (backslashes count).find? isBracket = none := by
    rw [List.find?_eq_none]
    intro c member
    rw [List.eq_of_mem_replicate member]
    decide
  rw [List.find?_append, noMark, Option.none_or]

theorem find?_closing : (closing count content).find? isBracket = some '[' := by
  rw [closing, find?_backslashes, List.find?_cons]
  rfl

/-- A bracket that closes in front of an opening one is not moved by escaping. -/
theorem find?_protect (text : Text)
    (closes : (protect text ++ closing count content).find? isBracket = some ']') :
    text.find? isBracket = some ']' ∧ (protect text ++ closing count content).head? = text.head? := by
  induction scanned text with
  | run other =>
      rw [protect_run, find?_backslashes, find?_closing] at closes
      exact absurd closes (by decide)
  | tag other isContent later ih =>
      rw [protect_tag other isContent, List.append_assoc, find?_backslashes, List.cons_append,
        List.find?_cons_of_pos (by decide)] at closes
      exact absurd closes (by decide)
  | @char other c rest notBackslash noTag later ih =>
      rw [protect_char other notBackslash noTag, List.append_assoc, find?_backslashes, List.cons_append,
        List.find?_cons] at closes
      rw [protect_char other notBackslash noTag, find?_backslashes, List.find?_cons]
      have sameHead : (backslashes other ++ c :: protect rest ++ closing count content).head? =
          (backslashes other ++ c :: rest).head? := by
        cases other <;> rfl
      refine ⟨?_, sameHead⟩
      split at closes
      · exact closes
      · exact (ih closes).1

/-- Escaping makes no tags. -/
theorem tag?_protect {c : Char} {text : Text} (noTag : tag? (c :: text) = none) :
    tag? (c :: (protect text ++ closing count content)) = none := by
  by_cases isOpening : c = '['
  · subst isOpening
    by_contra isTag
    obtain ⟨starts, closes⟩ := tag?_isSome_iff.mp (Option.isSome_iff_ne_none.mpr isTag)
    obtain ⟨closesBefore, sameHead⟩ := find?_protect text closes
    rw [sameHead] at starts
    have isSome := tag?_isSome_iff.mpr ⟨starts, closesBefore⟩
    rw [noTag] at isSome
    cases isSome
  · exact tag?_of_ne isOpening _

end Behind

/-- Pieces whose tags are all escaped, except for a last one. -/
inductive ClosesAtEnd (content : Text) : List (Piece EscapedTag) → Prop where
  | last (count : Nat) : ClosesAtEnd content [tagPiece count content]
  | plain (c : Char) {rest : List (Piece EscapedTag)} (later : ClosesAtEnd content rest) :
      ClosesAtEnd content (.plain c :: rest)
  | escaped (count : Nat) (inner : Text) {rest : List (Piece EscapedTag)}
      (later : ClosesAtEnd content rest) : ClosesAtEnd content (tagPiece (2 * count + 1) inner :: rest)

theorem ClosesAtEnd.plains {content : Text} {rest : List (Piece EscapedTag)}
    (later : ClosesAtEnd content rest) (text : Text) : ClosesAtEnd content (text.map .plain ++ rest) := by
  induction text with
  | nil => exact later
  | cons c text ih => exact .plain c ih

theorem closesAtEnd_protect {content : Text} (isContent : IsContent content) (count : Nat) (text : Text) :
    ClosesAtEnd content (pieces (protect text ++ closing count content)) := by
  induction scanned text with
  | run other =>
      have whole := pieces_tag (other + count) isContent []
      rw [← backslashes_append, List.append_assoc] at whole
      rw [protect_run, closing, whole]
      exact .last _
  | tag other isInner later ih =>
      rw [protect_tag other isInner, List.append_assoc, List.cons_append, List.append_assoc,
        List.cons_append, pieces_tag _ isInner]
      exact .escaped other _ ih
  | char other notBackslash noTag later ih =>
      rw [protect_char other notBackslash noTag, List.append_assoc, List.cons_append,
        pieces_char other notBackslash (tag?_protect noTag)]
      exact (ih.plain _).plains _

/-! ### The text that is shown -/

/-- A line whose last tag closes one that is open has a text. -/
theorem ClosesAtEnd.exists_plain {content : Text} {tags left : List OpenTag}
    (closes : openAfter tags content = .ok (some left)) {pieces : List (Piece EscapedTag)}
    (atEnd : ClosesAtEnd content pieces) (plain : Text) :
    ∃ text, plainPieces plain tags pieces = .ok (some text) := by
  induction atEnd generalizing plain with
  | last count =>
      rw [tagPiece, plainPieces]
      split
      · exact ⟨_, rfl⟩
      · rw [closes]
        exact ⟨_, rfl⟩
  | plain c later ih => exact ih _
  | escaped count inner later ih =>
      obtain ⟨text, shown⟩ := ih []
      have odd : (2 * count + 1) % 2 = 1 := by omega
      rw [tagPiece, plainPieces, if_pos odd, shown]
      exact ⟨_, rfl⟩

/-- Characters that begin neither an escape nor a code, and are no control characters. -/
def IsShown (text : Text) : Prop := ∀ c ∈ text, c ≠ '\\' ∧ c ≠ ':' ∧ Control.isDropped c = false

instance : DecidablePred IsShown := fun text =>
  List.decidableBAll (fun c => c ≠ '\\' ∧ c ≠ ':' ∧ Control.isDropped c = false) text

theorem shownText_append {start : Text} (isShown : IsShown start) (rest : Text) :
    shownText (start ++ rest) = start ++ shownText rest := by
  induction start with
  | nil => rfl
  | cons c start ih =>
      obtain ⟨noEscape, noCode, kept⟩ := isShown c List.mem_cons_self
      have later := ih fun d member => isShown d (List.mem_cons_of_mem c member)
      have unescaped : dropEscapes (c :: (start ++ rest)) = c :: dropEscapes (start ++ rest) := by
        rw [dropEscapes]
        exact fun _ isBackslash _ => noEscape isBackslash
      have unrecognised : Emoji.Code.recognise none (c :: dropEscapes (start ++ rest)) = none := by
        unfold Emoji.Code.recognise
        split
        · rename_i same
          exact absurd (List.cons.inj same).1 noCode
        · rfl
      have isCut := Piece.cut_of_unrecognised (fun _ _ _ => rfl) unrecognised
      rw [List.cons_append, List.cons_append, ← later, shownText, unescaped, Emoji.replace, isCut,
        Piece.substitute, List.flatMap_cons, ← Piece.substitute, ← Emoji.replace]
      simp only [List.singleton_append, Control.dropCodes, shownText]
      exact List.filter_cons_of_pos (by simpa using kept)

theorem prefix_shownText {start text : Text} (isShown : IsShown start) (starts : start <+: text) :
    start <+: shownText text := by
  obtain ⟨rest, rfl⟩ := starts
  rw [shownText_append isShown]
  exact List.prefix_append _ _

/-- What stands in front of a tag is shown in front of everything behind it. -/
theorem prefix_of_token {plain source text : Text} {tags : List OpenTag} {tag : EscapedTag}
    {pieces : List (Piece EscapedTag)}
    (shown : plainPieces plain tags (.token tag source :: pieces) = .ok (some text)) :
    shownText plain.reverse <+: text := by
  have ofMap {between : Text} {behind : Option Text} {outcome : Outcome (Option Text)}
      (mapped : outcome = .ok (some text))
      (isMapped : outcome = .ok (behind.map (shownText plain.reverse ++ between ++ ·))) :
      shownText plain.reverse <+: text := by
    obtain ⟨later, -, rfl⟩ := Option.map_eq_some_iff.mp (Except.ok.inj (isMapped.symm.trans mapped))
    rw [List.append_assoc]
    exact List.prefix_append _ _
  rw [plainPieces] at shown
  split at shown
  · obtain ⟨behind, -, mapped⟩ := Outcome.bind_eq_ok_iff.mp shown
    rw [List.append_assoc (shownText plain.reverse)] at mapped
    exact ofMap mapped rfl
  · obtain ⟨next, -, later⟩ := Outcome.bind_eq_ok_iff.mp shown
    cases next with
    | none => cases later
    | some next =>
        obtain ⟨behind, -, mapped⟩ := Outcome.bind_eq_ok_iff.mp later
        exact ofMap mapped rfl

/-- What a line begins with is shown in front of everything else. -/
theorem prefix_of_plainPieces {start : Text} (isShown : IsShown start) {plain text : Text}
    {tags : List OpenTag} {pieces : List (Piece EscapedTag)}
    (shown : plainPieces plain tags pieces = .ok (some text)) (starts : start <+: plain.reverse) :
    start <+: text := by
  induction pieces generalizing plain with
  | nil =>
      obtain rfl := Option.some.inj (Except.ok.inj shown)
      exact prefix_shownText isShown starts
  | cons piece pieces ih =>
      cases piece with
      | plain c =>
          have more : plain.reverse <+: (c :: plain).reverse := by
            rw [List.reverse_cons]
            exact List.prefix_append _ _
          exact ih shown (starts.trans more)
      | token tag source => exact (prefix_shownText isShown starts).trans (prefix_of_token shown)

theorem plainPieces_plains (plain : Text) (tags : List OpenTag) (text : Text)
    (rest : List (Piece EscapedTag)) :
    plainPieces plain tags (text.map .plain ++ rest) = plainPieces (text.reverse ++ plain) tags rest := by
  induction text generalizing plain with
  | nil => rfl
  | cons c text ih =>
      rw [List.map_cons, List.cons_append, plainPieces, ih, List.reverse_cons, List.append_assoc,
        List.singleton_append]

/-- Without opening brackets there are no tags up to a space. -/
theorem pieces_append_space {front : Text} (noOpening : '[' ∉ front) (rest : Text) :
    pieces (front ++ ' ' :: rest) = front.map .plain ++ .plain ' ' :: pieces rest := by
  induction front with
  | nil => exact pieces_char 0 (by decide) (tag?_of_ne (by decide) rest)
  | cons c front ih =>
      have unrecognised : EscapedTag.recognise none (c :: (front ++ ' ' :: rest)) = none := by
        obtain ⟨count, behind, whole, stops⟩ := exists_backslashes (c :: front)
        rw [← List.cons_append, whole, List.append_assoc, recognise_run]
        · cases behind with
          | nil => rw [List.nil_append, tag?_of_ne (by decide), Option.map_none]
          | cons d behind =>
              have notOpening : d ≠ '[' := by
                rintro rfl
                refine noOpening ?_
                rw [whole]
                simp
              rw [List.cons_append, tag?_of_ne notOpening, Option.map_none]
        · cases behind with
          | nil => simp
          | cons d behind => exact stops
      rw [pieces, List.cons_append, Piece.cut_of_unrecognised recognise_ignoresBefore unrecognised,
        ← pieces, ih fun member => noOpening (List.mem_cons_of_mem c member)]
      rfl

/-! ### Messages in red -/

def red : OpenTag := ⟨"red", []⟩

theorem plain?_red (rest : Text) :
    plain? ("[red]".toList ++ rest) = plainPieces [] [red] (pieces rest) := by
  have isContent : IsContent "red" := ⟨by decide, by decide⟩
  have isTag : pieces ("[red]".toList ++ rest) = tagPiece 0 "red" :: pieces rest :=
    pieces_tag 0 isContent rest
  have opens : openAfter [] "red" = .ok (some [red]) := by
    rfl
  rw [plain?, isTag, tagPiece, plainPieces, opens, if_neg (by decide), Outcome.ok_bind]
  dsimp only
  cases plainPieces [] [red] (pieces rest) with
  | error fault => rfl
  | ok shown => cases shown <;> rfl

/-- A message behind plain words is shown, whatever it says. -/
theorem exists_plain?_red {front : Text} (noOpening : '[' ∉ front) (message : Text) :
    ∃ text, plain? ("[red]".toList ++ (front ++ ' ' :: (escape message ++ "[/red]".toList))) =
      .ok (some text) := by
  obtain ⟨count, isEscaped⟩ := exists_escape_eq message
  have isContent : IsContent "/red" := ⟨by decide, by decide⟩
  have atEnd := closesAtEnd_protect isContent count message
  have closes : openAfter [red] "/red" = .ok (some []) := by
    rfl
  rw [plain?_red, pieces_append_space noOpening, isEscaped, List.append_assoc]
  exact ((atEnd.plain ' ').plains front).exists_plain closes []

/-- The plain words in front of a message in red are shown in front. -/
theorem prefix_of_plain?_red {front rest text : Text} (noOpening : '[' ∉ front) (isShown : IsShown front)
    (shown : plain? ("[red]".toList ++ (front ++ ' ' :: rest)) = .ok (some text)) :
    front ++ [' '] <+: text := by
  rw [plain?_red, pieces_append_space noOpening, plainPieces_plains, plainPieces] at shown
  refine prefix_of_plainPieces ?_ shown ?_
  · intro c member
    rcases List.mem_append.mp member with inFront | isSpace
    · exact isShown c inFront
    · rw [List.mem_singleton.mp isSpace]
      decide
  · simp

end Covenant.Markup
