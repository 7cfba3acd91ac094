import Covenant.Proofs.Template.BlankLines
import Covenant.Proofs.Template.LoopBody
import Covenant.Proofs.Template.Placed
import Covenant.Proofs.Template.Report
import Covenant.Proofs.Text.Delimiter

/-!
# Texts whose brackets stand in tokens

Templates hold brackets in tokens `[[…]]` only.  Such a text is a row of symbols, characters and
slots, and every pass that looks at the slots one by one leaves a text of the same kind.  What is
known of the tokens of a text is carried along as a property of their contents.
-/

namespace Covenant

open Loop (Symbol)

/-- The content of a token: it is not empty, and on one line. -/
def IsToken (content : Text) : Prop := content ≠ [] ∧ ∀ c ∈ content, isLineBreak c = false

/-- A character without marks, or a slot with a content without delimiters; when that is the content
of a token, it has the property `kept`. -/
def Loop.Symbol.Bears (marks : Char → Bool) (kept : Text → Prop) : Symbol → Prop
  | .char c => marks c = false
  | .slot content => Clean content ∧ (IsToken content → kept content)

/-- A text without marks outside of slots, the tokens of which have the property `kept`. -/
def Tokenised (marks : Char → Bool) (kept : Text → Prop) (text : Text) : Prop :=
  ∃ symbols, text = Symbol.written symbols ∧ ∀ symbol ∈ symbols, symbol.Bears marks kept

/-! ### Collapsing blank lines -/

namespace BlankLines

theorem mem_of_mem_collapse {c : Char} {text : Text} (member : c ∈ collapse text) :
    c ∈ text ∨ c = '\n' := by
  obtain ⟨piece, inCut, inPiece⟩ := List.mem_flatMap.mp member
  cases piece with
  | plain d =>
      refine .inl ?_
      rw [← @Piece.flatMap_source_cut _ recognise text]
      exact List.mem_flatMap.mpr ⟨.plain d, inCut, inPiece⟩
  | token found source => exact .inr (by simpa using inPiece)

theorem collapse_eq_of_noBreak {text : Text}
    (noBreak : ∀ c ∈ collapse text, isLineBreak c = false) : collapse text = text := by
  have same (pieces : List (Piece Unit))
      (free : ∀ c ∈ Piece.substitute (fun _ _ => "\n\n".toList) pieces, isLineBreak c = false) :
      Piece.substitute (fun _ _ => "\n\n".toList) pieces = pieces.flatMap Piece.source := by
    induction pieces with
    | nil => rfl
    | cons piece pieces ih =>
        rw [Piece.substitute, List.flatMap_cons] at free ⊢
        have later := ih fun c member => free c (List.mem_append_right _ member)
        rw [Piece.substitute] at later
        cases piece with
        | plain c => rw [later, List.flatMap_cons]; rfl
        | token found source => exact absurd (free '\n' (by simp)) (by decide)
  have sources := same (Piece.cut recognise text) noBreak
  rwa [Piece.flatMap_source_cut] at sources

end BlankLines

theorem Lacks.collapse {marks : Char → Bool} (notBreak : marks '\n' = false) {text : Text}
    (lacks : Lacks marks text) : Lacks marks (BlankLines.collapse text) := by
  intro c member
  rcases BlankLines.mem_of_mem_collapse member with inText | rfl
  · exact lacks c inText
  · exact notBreak

/-! ### Tokenised texts -/

namespace Tokenised

variable {marks : Char → Bool} {kept : Text → Prop} {text first second : Text}

theorem of_lacks (lacks : Lacks marks text) : Tokenised marks kept text := by
  refine ⟨Symbol.chars text, (Symbol.written_chars text).symm, fun symbol member => ?_⟩
  obtain ⟨c, inText, rfl⟩ := List.mem_map.mp member
  exact lacks c inText

theorem of_slot {content : Text} (clean : Clean content) (isKept : IsToken content → kept content) :
    Tokenised marks kept (Symbol.slot content).source :=
  ⟨[.slot content], by simp [Symbol.written], by simpa using ⟨clean, isKept⟩⟩

theorem append (first_ : Tokenised marks kept first) (second_ : Tokenised marks kept second) :
    Tokenised marks kept (first ++ second) := by
  obtain ⟨symbols, rfl, bears⟩ := first_
  obtain ⟨others, rfl, othersBear⟩ := second_
  refine ⟨symbols ++ others, (Symbol.written_append _ _).symm, fun symbol member => ?_⟩
  exact (List.mem_append.mp member).elim (bears symbol) (othersBear symbol)

theorem flatten {texts : List Text} (each : ∀ text ∈ texts, Tokenised marks kept text) :
    Tokenised marks kept texts.flatten := by
  induction texts with
  | nil => exact of_lacks Lacks.nil
  | cons text texts ih =>
      exact (each text List.mem_cons_self).append
        (ih fun other member => each other (List.mem_cons_of_mem text member))

theorem mono {also : Text → Prop} (weaker : ∀ content, Clean content → kept content → also content)
    (tokenised : Tokenised marks kept text) : Tokenised marks also text := by
  obtain ⟨symbols, rfl, bears⟩ := tokenised
  refine ⟨symbols, rfl, fun symbol member => ?_⟩
  have own := bears symbol member
  cases symbol with
  | char c => exact own
  | slot content => exact ⟨own.1, fun isToken => weaker content own.1 (own.2 isToken)⟩

/-- Without any delimiters outside of slots there are no brackets there. -/
theorem atBrackets (tokenised : Tokenised isDelimiter kept text) : Tokenised isBracket kept text := by
  obtain ⟨symbols, rfl, bears⟩ := tokenised
  refine ⟨symbols, rfl, fun symbol member => ?_⟩
  have own := bears symbol member
  cases symbol with
  | char c => exact isBracket_of_not_isDelimiter own
  | slot content => exact own

/-- The tokens are found in the text. -/
theorem within (tokenised : Tokenised marks kept text) :
    Tokenised marks (fun content => kept content ∧ (Symbol.slot content).source <:+: text) text := by
  obtain ⟨symbols, rfl, bears⟩ := tokenised
  refine ⟨symbols, rfl, fun symbol member => ?_⟩
  have own := bears symbol member
  cases symbol with
  | char c => exact own
  | slot content =>
      refine ⟨own.1, fun isToken => ⟨own.2 isToken, ?_⟩⟩
      obtain ⟨before, after, rfl⟩ := List.append_of_mem member
      exact ⟨Symbol.written before, Symbol.written after, by simp [Symbol.written]⟩

theorem trim (tokenised : Tokenised marks kept text) : Tokenised marks kept (Text.trim text) := by
  obtain ⟨symbols, rfl, bears⟩ := tokenised
  refine ⟨Symbol.trimmed symbols, Symbol.trim_written symbols, fun symbol member => ?_⟩
  exact bears symbol
    ((List.dropWhile_sublist _).subset ((List.rdropWhile_prefix _ _).subset member))

theorem collapse (notBreak : marks '\n' = false) (tokenised : Tokenised marks kept text) :
    Tokenised marks kept (BlankLines.collapse text) := by
  obtain ⟨symbols, rfl, bears⟩ := tokenised
  -- `before` holds the characters that are not yet divided from what follows by a slot
  have divided (before : Text) (lacks : Lacks marks before) :
      Tokenised marks kept (BlankLines.collapse (before ++ Symbol.written symbols)) := by
    induction symbols generalizing before with
    | nil => simpa using of_lacks (Lacks.collapse notBreak lacks)
    | cons symbol symbols ih =>
        have own := bears symbol List.mem_cons_self
        have later := ih fun other member => bears other (List.mem_cons_of_mem symbol member)
        cases symbol with
        | char c =>
            have whole : before ++ Symbol.written (.char c :: symbols) =
                (before ++ [c]) ++ Symbol.written symbols := by
              simp [Symbol.written, Symbol.source]
            rw [whole]
            exact later (before ++ [c]) (lacks.append (Lacks.cons own Lacks.nil))
        | slot content =>
            have whole : before ++ Symbol.written (.slot content :: symbols) =
                before ++ '[' :: ([] ++ '[' :: (content ++ ']' :: ([] ++
                  ']' :: Symbol.written symbols))) := by
              simp [Symbol.written, Symbol.source]
            have empty : BlankLines.collapse [] = [] := rfl
            have collapsed : BlankLines.collapse (before ++ Symbol.written (.slot content :: symbols)) =
                BlankLines.collapse before ++ ((Symbol.slot (BlankLines.collapse content)).source ++
                  BlankLines.collapse ([] ++ Symbol.written symbols)) := by
              rw [whole, BlankLines.collapse_append_cons (by decide),
                BlankLines.collapse_append_cons (by decide),
                BlankLines.collapse_append_cons (by decide),
                BlankLines.collapse_append_cons (by decide)]
              simp [Symbol.source, empty]
            rw [collapsed]
            refine (of_lacks (Lacks.collapse notBreak lacks)).append
              ((of_slot (Lacks.collapse rfl own.1) fun isToken => ?_).append (later [] Lacks.nil))
            have same := BlankLines.collapse_eq_of_noBreak isToken.2
            rw [same] at isToken ⊢
            exact own.2 isToken
  exact divided [] Lacks.nil

/-- A character after a text without it is found behind that text. -/
theorem exists_of_append_eq {d : Char} {first rest before after : Text} (free : ∀ c ∈ first, c ≠ d)
    (same : first ++ rest = before ++ d :: after) :
    ∃ between, before = first ++ between ∧ rest = between ++ d :: after := by
  induction first generalizing before with
  | nil => exact ⟨before, rfl, same⟩
  | cons c first ih =>
      cases before with
      | nil => exact absurd (List.cons.inj same).1 (free c List.mem_cons_self)
      | cons e before =>
          obtain ⟨rfl, later⟩ := List.cons.inj same
          obtain ⟨between, rfl, whole⟩ :=
            ih (fun other member => free other (List.mem_cons_of_mem c member)) later
          exact ⟨between, rfl, whole⟩

/-- The tokens of a text that holds no other brackets are its slots. -/
theorem mem_of_written_eq {symbols : List Symbol} {content before after : Text}
    (bears : ∀ symbol ∈ symbols, symbol.Bears isBracket kept) (free : BracketFree content)
    (whole : Symbol.written symbols = before ++ ((Symbol.slot content).source ++ after)) :
    Symbol.slot content ∈ symbols := by
  induction symbols generalizing before with
  | nil => simp [Symbol.source] at whole
  | cons symbol symbols ih =>
      have own := bears symbol List.mem_cons_self
      have later (between : Text)
          (rest : Symbol.written symbols = between ++ ((Symbol.slot content).source ++ after)) :
          Symbol.slot content ∈ symbol :: symbols :=
        List.mem_cons_of_mem _
          (ih (fun other member => bears other (List.mem_cons_of_mem symbol member)) rest)
      have written : Symbol.written (symbol :: symbols) = symbol.source ++ Symbol.written symbols :=
        rfl
      rw [written] at whole
      have notOpening {c : Char} (noBracket : isBracket c = false) : c ≠ '[' := by
        rintro rfl
        exact absurd noBracket (by decide)
      cases symbol with
      | char c =>
          have split : [c] ++ Symbol.written symbols =
              before ++ '[' :: ('[' :: (content ++ [']', ']']) ++ after) := whole
          obtain ⟨between, -, rest⟩ := exists_of_append_eq (by simpa using notOpening own) split
          exact later between rest
      | slot other =>
          have behind : ∀ c ∈ other ++ [']', ']'], c ≠ '[' := by
            intro c member
            rcases List.mem_append.mp member with inOther | isClosing
            · exact notOpening (own.1.bracketFree c inOther)
            · rintro rfl
              simp at isClosing
          -- the token cannot begin at the second bracket of the slot, since no third one follows
          cases before with
          | nil =>
              have bracketed : IsBracketed (Symbol.slot content).source := ⟨content, free, rfl⟩
              have otherBracketed : IsBracketed (Symbol.slot other).source :=
                ⟨other, own.1.bracketFree, rfl⟩
              have sources := (otherBracketed.append_inj bracketed whole).1
              have contents : other ++ [']', ']'] = content ++ [']', ']'] := by
                simpa [Symbol.source] using sources
              rw [List.append_cancel_right contents]
              exact List.mem_cons_self
          | cons c before =>
              cases before with
              | nil =>
                  have second : (other ++ [']', ']']) ++ Symbol.written symbols =
                      [] ++ '[' :: (content ++ (']' :: ']' :: after)) := by
                    have tails := congrArg (List.drop 2) whole
                    simpa [Symbol.source] using tails
                  obtain ⟨between, empty, -⟩ := exists_of_append_eq behind second
                  simp at empty
              | cons d before =>
                  have third : (other ++ [']', ']']) ++ Symbol.written symbols =
                      before ++ '[' :: ('[' :: (content ++ (']' :: ']' :: after))) := by
                    have tails := congrArg (List.drop 2) whole
                    simpa [Symbol.source] using tails
                  obtain ⟨between, -, rest⟩ := exists_of_append_eq behind third
                  exact later between (by simpa [Symbol.source] using rest)

/-- What is known of the tokens of a text holds of every token in it. -/
theorem kept_of_infix (tokenised : Tokenised isBracket kept text) {content : Text}
    (free : BracketFree content) (isToken : IsToken content)
    (within : (Symbol.slot content).source <:+: text) : kept content := by
  obtain ⟨symbols, rfl, bears⟩ := tokenised
  obtain ⟨before, after, whole⟩ := within
  rw [List.append_assoc] at whole
  exact (bears _ (mem_of_written_eq bears free whole.symm)).2 isToken

end Tokenised

/-! ### Reading slots -/

/-- A recogniser that finds its tokens in slots only, and sees from the content of a slot whether
it is one. -/
structure ReadsSlots {α : Type} (recognise : Recogniser α) (marks : Char → Bool)
    (token? : Text → Option α) : Prop where
  ignores : IgnoresBefore recognise
  delimiters : ∀ c, isDelimiter c = false → marks c = false
  char : ∀ c rest, marks c = false → recognise none (c :: rest) = none
  closing : ∀ rest, recognise none (']' :: rest) = none
  slot : ∀ content rest, Clean content →
    recognise none ((Symbol.slot content).source ++ rest) =
      (token? content).map fun token => (token, (Symbol.slot content).source.length)
  inner : ∀ content rest, Clean content → token? content = none →
    recognise none ('[' :: (content ++ ']' :: ']' :: rest)) = none

/-- The pieces into which a symbol is cut. -/
def Loop.Symbol.piecesBy {α : Type} (token? : Text → Option α) : Symbol → List (Piece α)
  | .char c => [.plain c]
  | .slot content =>
      match token? content with
      | some token => [.token token (Symbol.slot content).source]
      | none => (Symbol.slot content).source.map .plain

namespace ReadsSlots

variable {α : Type} {recognise : Recogniser α} {marks : Char → Bool} {token? : Text → Option α}
  {kept : Text → Prop}

theorem atDelimiters (reads : ReadsSlots recognise marks token?) :
    ReadsSlots recognise isDelimiter token? where
  ignores := reads.ignores
  delimiters _ := id
  char c rest plain := reads.char c rest (reads.delimiters c plain)
  closing := reads.closing
  slot := reads.slot
  inner := reads.inner

theorem cut_plain (reads : ReadsSlots recognise marks token?) {text : Text} (lacks : Lacks marks text)
    (rest : Text) : Piece.cut recognise (text ++ rest) =
      text.map .plain ++ Piece.cut recognise rest := by
  induction text with
  | nil => rfl
  | cons c text ih =>
      have first := reads.char c (text ++ rest) (lacks c List.mem_cons_self)
      rw [List.cons_append, Piece.cut_of_unrecognised reads.ignores first,
        ih fun other member => lacks other (List.mem_cons_of_mem c member), List.map_cons,
        List.cons_append]

theorem cut_source (reads : ReadsSlots recognise marks token?) {symbol : Symbol}
    (bears : symbol.Bears marks kept) (rest : Text) :
    Piece.cut recognise (symbol.source ++ rest) =
      symbol.piecesBy token? ++ Piece.cut recognise rest := by
  cases symbol with
  | char c => exact reads.cut_plain (Lacks.cons bears Lacks.nil) rest
  | slot content =>
      have found := reads.slot content rest bears.1
      cases isToken : token? content with
      | some token =>
          rw [isToken] at found
          rw [Symbol.piecesBy, isToken]
          exact Piece.cut_of_recognised reads.ignores rest (by simp [Symbol.source]) found
      | none =>
          rw [isToken] at found
          have second := reads.inner content rest bears.1 isToken
          rw [Symbol.piecesBy, isToken]
          simp only [Symbol.source, List.cons_append, List.append_assoc, List.nil_append,
            List.map_cons, List.map_append, List.map_nil] at found ⊢
          rw [Piece.cut_of_unrecognised reads.ignores found,
            Piece.cut_of_unrecognised reads.ignores second,
            reads.cut_plain fun c inContent => reads.delimiters c (bears.1 c inContent),
            Piece.cut_of_unrecognised reads.ignores (reads.closing _),
            Piece.cut_of_unrecognised reads.ignores (reads.closing _)]

theorem cut_written (reads : ReadsSlots recognise marks token?) {symbols : List Symbol}
    (bear : ∀ symbol ∈ symbols, symbol.Bears marks kept) :
    Piece.cut recognise (Symbol.written symbols) = symbols.flatMap (Symbol.piecesBy token?) := by
  induction symbols with
  | nil => rfl
  | cons symbol symbols ih =>
      have later := ih fun other member => bear other (List.mem_cons_of_mem symbol member)
      rw [List.flatMap_cons, ← later]
      exact reads.cut_source (bear symbol List.mem_cons_self) (Symbol.written symbols)

end ReadsSlots

/-- A text is tokenised when each symbol that is no token stays and each token becomes a tokenised
text. -/
theorem Tokenised.of_exchanged {α : Type} {token? : Text → Option α} {marks : Char → Bool}
    {kept : Text → Prop} {Becomes : Piece α → Text → Prop}
    (plain : ∀ c text, Becomes (.plain c) text → text = [c]) {symbols : List Symbol}
    (stays : ∀ symbol ∈ symbols, (∀ content, symbol = .slot content → token? content = none) →
      symbol.Bears marks kept)
    (token : ∀ content found text, .slot content ∈ symbols → token? content = some found →
      Becomes (.token found (Symbol.slot content).source) text → Tokenised marks kept text)
    {texts : List Text}
    (become : List.Forall₂ Becomes (symbols.flatMap (Symbol.piecesBy token?)) texts) :
    Tokenised marks kept texts.flatten := by
  have plains (source : Text) (texts : List Text)
      (become : List.Forall₂ Becomes (source.map .plain) texts) : texts.flatten = source := by
    induction source generalizing texts with
    | nil =>
        cases become
        rfl
    | cons c source ih =>
        cases become with
        | @cons _ text _ texts own later =>
            rw [List.flatten_cons, plain c text own, ih texts later]
            rfl
  induction symbols generalizing texts with
  | nil =>
      cases become
      exact .of_lacks Lacks.nil
  | cons symbol symbols ih =>
      rw [List.flatMap_cons] at become
      have ownBecome := (List.forall₂_take_append _ _ _ become.flip).flip
      have laterBecome := (List.forall₂_drop_append _ _ _ become.flip).flip
      rw [← List.take_append_drop (symbol.piecesBy token?).length texts, List.flatten_append]
      generalize texts.take (symbol.piecesBy token?).length = own at ownBecome ⊢
      refine Tokenised.append ?_ (ih
        (fun other member => stays other (List.mem_cons_of_mem symbol member))
        (fun content found text member => token content found text (List.mem_cons_of_mem symbol member))
        laterBecome)
      have kept (noToken : ∀ content, symbol = .slot content → token? content = none) :
          Tokenised marks kept symbol.source :=
        ⟨[symbol], by simp [Symbol.written], by simpa using stays symbol List.mem_cons_self noToken⟩
      cases symbol with
      | char c =>
          rw [plains [c] own ownBecome]
          refine kept fun content isSlot => ?_
          cases isSlot
      | slot content =>
          rw [Symbol.piecesBy] at ownBecome
          cases isToken : token? content with
          | none =>
              rw [isToken] at ownBecome
              rw [plains _ own ownBecome]
              refine kept ?_
              rintro _ ⟨⟩
              exact isToken
          | some found =>
              rw [isToken] at ownBecome
              cases ownBecome with
              | @cons _ text _ _ becomes none =>
                  cases none
                  rw [List.flatten_singleton]
                  exact token content found text List.mem_cons_self isToken becomes

end Covenant
