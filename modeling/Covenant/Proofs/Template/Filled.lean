import Covenant.Proofs.Template.TokenCase
import Covenant.Proofs.Template.TokenPasses
import Covenant.Template.Nested

/-!
# Placeholders between tokens

A token on one line is a placeholder.  When every name is known, a structural token stays and any
other one gives way to a value of the context, in the letter case that its modifier asks for.
Placeholders of another style may hold tokens: a structural one keeps them too.
-/

namespace Covenant

open Loop (Symbol)

variable {kept : Text → Prop} {text : Text}

instance (content : Text) : Decidable (IsToken content) :=
  have := List.decidableBAll (fun c => isLineBreak c = false) content
  inferInstanceAs (Decidable (content ≠ [] ∧ ∀ c ∈ content, isLineBreak c = false))

namespace Placeholder

/-- The placeholder that a token is. -/
def ofToken? (content : Text) : Option Placeholder :=
  if IsToken content then some ⟨.double, content⟩ else none

theorem recognise_of_not_delimiter {c : Char} (plain : isDelimiter c = false) (rest : Text) :
    recognise none (c :: rest) = none := by
  simp only [isDelimiter, isBracket, isBrace, Bool.or_eq_false_iff, decide_eq_false_iff_not] at plain
  obtain ⟨⟨⟨⟨notOpening, -⟩, notBrace, -⟩, notAngle⟩, -⟩ := plain
  have differs {d : Char} (ne : c ≠ d) : d ≠ c := fun same => ne same.symm
  simp [recognise, legacy?, enclosed?, List.isPrefixOf, differs notOpening, differs notBrace,
    differs notAngle]

theorem recognise_closing (rest : Text) : recognise none (']' :: rest) = none := by
  simp [recognise, legacy?, enclosed?, List.isPrefixOf]

/-- At an opening bracket only the two styles with square brackets count. -/
theorem recognise_opening (rest : Text) :
    recognise none ('[' :: rest) =
      ((enclosed? "[[" "]]" inSquareBrackets ('[' :: rest)).map
        fun (content, length) => (⟨.double, content⟩, length)).or
      ((enclosed? "[" "]" inSquareBrackets ('[' :: rest)).map
        fun (content, length) => (⟨.single, content⟩, length)) := by
  have legacy : legacy? ('[' :: rest) = none := by
    simp [legacy?, enclosed?, List.isPrefixOf]
  have angle : enclosed? "<<" ">>" inAngles ('[' :: rest) = none := by
    simp [enclosed?, List.isPrefixOf]
  have brace : enclosed? "\x7b" "\x7d" inBraces ('[' :: rest) = none := by
    simp [enclosed?, List.isPrefixOf]
  simp only [recognise, legacy, angle, brace, Option.map_none, Option.none_or]

theorem inSquareBrackets_of_isToken {content : Text} (free : BracketFree content)
    (isToken : IsToken content) : ∀ c ∈ content, inSquareBrackets c = true := by
  intro c member
  simp [inSquareBrackets, free c member, isToken.2 c member]

theorem isToken_of_inSquareBrackets {content : Text} (filled : content ≠ [])
    (allowed : ∀ c ∈ content, inSquareBrackets c = true) : IsToken content := by
  refine ⟨filled, fun c member => ?_⟩
  have own := allowed c member
  simp only [inSquareBrackets, Bool.and_eq_true, Bool.not_eq_true'] at own
  exact own.2

theorem readsSlots : ReadsSlots recognise isDelimiter ofToken? where
  ignores _ _ _ := rfl
  delimiters _ := id
  char c rest plain := recognise_of_not_delimiter plain rest
  closing := recognise_closing
  slot content rest clean := by
    have free := clean.bracketFree
    have single : enclosed? "[" "]" inSquareBrackets
        ((Symbol.slot content).source ++ rest) = none := by
      simp [enclosed?, Symbol.source, inSquareBrackets, isBracket]
    have double : enclosed? "[[" "]]" inSquareBrackets ((Symbol.slot content).source ++ rest) =
        if IsToken content then some (content, (Symbol.slot content).source.length) else none := by
      split
      · rename_i isToken
        exact (enclosed?_double_eq_some_iff isBracket_of_inSquareBrackets).mpr
          ⟨_, rest, ⟨isToken.1, inSquareBrackets_of_isToken free isToken, rfl⟩, rfl, rfl⟩
      · rename_i noToken
        by_contra isEnclosed
        obtain ⟨⟨found, length⟩, isEnclosed⟩ := Option.ne_none_iff_exists'.mp isEnclosed
        obtain ⟨source, after, ⟨filled, allowed, rfl⟩, whole, -⟩ :=
          (enclosed?_double_eq_some_iff isBracket_of_inSquareBrackets).mp isEnclosed
        have sources := (IsBracketed.append_inj ⟨content, free, rfl⟩
          ⟨found, fun c member => isBracket_of_inSquareBrackets c (allowed c member), rfl⟩ whole).1
        have contents : content ++ [']', ']'] = found ++ [']', ']'] := by
          simpa [Symbol.source] using sources
        obtain rfl := List.append_cancel_right contents
        exact noToken (isToken_of_inSquareBrackets filled allowed)
    rw [show (Symbol.slot content).source ++ rest = '[' :: ('[' :: (content ++ [']', ']']) ++ rest)
      from rfl] at single double ⊢
    rw [recognise_opening, single, double, Option.map_none, Option.or_none, ofToken?]
    split <;> rfl
  inner content rest clean noToken := by
    have free := clean.bracketFree
    have double : enclosed? "[[" "]]" inSquareBrackets
        ('[' :: (content ++ ']' :: ']' :: rest)) = none := by
      cases content with
      | nil => simp [enclosed?, List.isPrefixOf]
      | cons c content =>
          have notOpening : '[' ≠ c := by
            rintro rfl
            exact absurd (free '[' List.mem_cons_self) (by decide)
          simp [enclosed?, List.isPrefixOf, notOpening]
    have single : enclosed? "[" "]" inSquareBrackets
        ('[' :: (content ++ ']' :: ']' :: rest)) = none := by
      by_contra isEnclosed
      obtain ⟨⟨found, length⟩, isEnclosed⟩ := Option.ne_none_iff_exists'.mp isEnclosed
      obtain ⟨after, opened, filled, allowed, -⟩ := enclosed?_eq_some isEnclosed
      have whole := (List.cons.inj opened).2
      obtain rfl := free.append_closing_inj
        (fun c member => isBracket_of_inSquareBrackets c (allowed c member)) whole
      rw [ofToken?, if_pos (isToken_of_inSquareBrackets filled allowed)] at noToken
      cases noToken
    rw [recognise_opening, single, double]
    rfl

/-- What a piece becomes when placeholders are replaced. -/
def exchanged (context : ContextMap) : Piece Placeholder → Text
  | .plain c => [c]
  | .token placeholder source =>
      match placeholder.read context with
      | .value value => value
      | _ => source

theorem resolve_eq_flatten (context : ContextMap) (text : Text) :
    resolve context text = ((pieces text).map (exchanged context)).flatten := by
  rw [resolve, Piece.substitute, List.flatMap_def]
  congr 2
  funext piece
  cases piece <;> rfl

theorem flatten_exchanged_plain (context : ContextMap) (text : Text) :
    ((text.map .plain).map (exchanged context)).flatten = text := by
  rw [List.map_map, ← List.flatMap_def]
  exact List.flatMap_singleton' text

theorem resolve_of_clean (clean : Clean text) (context : ContextMap) :
    resolve context text = text := by
  have isCut : pieces text = text.map .plain := by
    simpa [pieces, Piece.cut, Piece.cutAfter] using readsSlots.cut_plain clean []
  rw [resolve_eq_flatten, isCut, flatten_exchanged_plain]

theorem read_ne_unknown {context : ContextMap} (none : unresolved context text = [])
    {placeholder : Placeholder} {source : Text} (member : .token placeholder source ∈ pieces text)
    (name : Text) : placeholder.read context ≠ .unknown name := by
  intro isUnknown
  have listed : name ∈ unresolved context text :=
    List.mem_filterMap.mpr ⟨_, member, by simp [isUnknown]⟩
  rw [none] at listed
  cases listed

section Read

variable {context : ContextMap} {placeholder : Placeholder}

theorem isStructural_of_read (isRead : placeholder.read context = .structural) :
    isStructural placeholder.content = true := by
  by_contra notStructural
  rw [read, if_neg notStructural] at isRead
  split at isRead
  split at isRead
  · cases isRead
  · cases isRead

theorem exists_of_read_value {value : Text} (isRead : placeholder.read context = .value value) :
    ∃ name stored modifier, context.lookup name = some stored ∧
      value = Modifier.applyGiven modifier stored := by
  rw [read] at isRead
  split at isRead
  · cases isRead
  · split at isRead
    rename_i modifier name _
    split at isRead
    · rename_i stored found
      exact ⟨name, stored, modifier, found, (Reading.value.inj isRead).symm⟩
    · cases isRead

end Read

/-! ### Placeholders of other styles -/

theorem exists_end_of_enclosed? {opening closing first text content : Text} {d : Char}
    (ends : closing = first ++ [d]) {allowed : Char → Bool} {length : Nat}
    (enclosed : enclosed? opening closing allowed text = some (content, length)) :
    ∃ body after, text = body ++ d :: after ∧ length = body.length + 1 := by
  obtain ⟨after, rfl, -, -, rfl⟩ := enclosed?_eq_some enclosed
  subst ends
  refine ⟨opening ++ (content ++ first), after, by simp, ?_⟩
  simp only [List.length_append, List.length_singleton]
  omega

/-- A placeholder that begins with no square bracket ends with a delimiter that is none either. -/
theorem exists_end_of_recognise {c : Char} {rest : Text} (noBracket : isBracket c = false)
    {placeholder : Placeholder} {length : Nat}
    (recognised : recognise none (c :: rest) = some (placeholder, length)) :
    placeholder.style ≠ .double ∧ ∃ body d after, isDelimiter d = true ∧ isBracket d = false ∧
      c :: rest = body ++ d :: after ∧ length = body.length + 1 := by
  have notOpening : c ≠ '[' := by
    rintro rfl
    exact absurd noBracket (by decide)
  simp only [recognise, Option.or_eq_some_iff, Option.map_eq_some_iff, Prod.mk.injEq, Prod.exists]
    at recognised
  rcases recognised with ⟨content, _, enclosed, -⟩ | ⟨-, ⟨content, _, isLegacy, rfl, rfl⟩ |
    ⟨-, ⟨content, _, enclosed, rfl, rfl⟩ | ⟨-, ⟨content, _, enclosed, rfl, rfl⟩ |
      ⟨-, content, _, enclosed, -⟩⟩⟩⟩
  · obtain ⟨after, whole, -⟩ := enclosed?_eq_some enclosed
    exact absurd (List.cons.inj whole).1 notOpening
  · obtain ⟨⟨inner, length⟩, enclosed, named⟩ := Option.bind_eq_some_iff.mp isLegacy
    obtain ⟨name, -, same⟩ := Option.bind_eq_some_iff.mp named
    obtain ⟨rfl, rfl⟩ := Prod.mk.inj (Option.some.inj same)
    obtain ⟨body, after, whole, isLength⟩ := exists_end_of_enclosed?
      (show ("\x7d\x7d" : Text) = ['}'] ++ ['}'] from rfl) enclosed
    exact ⟨nofun, body, '}', after, rfl, rfl, whole, isLength⟩
  · obtain ⟨body, after, whole, isLength⟩ := exists_end_of_enclosed?
      (show (">>" : Text) = ['>'] ++ ['>'] from rfl) enclosed
    exact ⟨nofun, body, '>', after, rfl, rfl, whole, isLength⟩
  · obtain ⟨body, after, whole, isLength⟩ := exists_end_of_enclosed?
      (show ("\x7d" : Text) = [] ++ ['}'] from rfl) enclosed
    exact ⟨nofun, body, '}', after, rfl, rfl, whole, isLength⟩
  · obtain ⟨after, whole, -⟩ := enclosed?_eq_some enclosed
    exact absurd (List.cons.inj whole).1 notOpening

/-- A delimiter that is no square bracket stands outside of slots. -/
theorem exists_split_of_delimiter {symbols : List Symbol} {marks : Char → Bool}
    (bear : ∀ symbol ∈ symbols, symbol.Bears marks kept) {d : Char} (delimits : isDelimiter d = true)
    (noBracket : isBracket d = false) {before after : Text}
    (whole : Symbol.written symbols = before ++ d :: after) :
    ∃ first later, symbols = first ++ .char d :: later ∧ Symbol.written first = before ∧
      Symbol.written later = after := by
  induction symbols generalizing before with
  | nil => simp [Symbol.written] at whole
  | cons symbol symbols ih =>
      have own := bear symbol List.mem_cons_self
      have later (between : Text) (isBefore : before = symbol.source ++ between)
          (rest : Symbol.written symbols = between ++ d :: after) :
          ∃ first later, symbol :: symbols = first ++ .char d :: later ∧
            Symbol.written first = before ∧ Symbol.written later = after := by
        obtain ⟨first, later, rfl, rfl, isAfter⟩ :=
          ih (fun other member => bear other (List.mem_cons_of_mem symbol member)) rest
        exact ⟨symbol :: first, later, rfl, isBefore.symm, isAfter⟩
      cases symbol with
      | char c =>
          have split : c :: Symbol.written symbols = before ++ d :: after := whole
          cases before with
          | nil =>
              obtain ⟨rfl, isAfter⟩ := List.cons.inj split
              exact ⟨[], symbols, rfl, rfl, isAfter⟩
          | cons e before =>
              obtain ⟨rfl, rest⟩ := List.cons.inj split
              exact later before rfl rest
      | slot content =>
          have others : ∀ c ∈ (Symbol.slot content).source, c ≠ d := by
            rintro c member rfl
            simp only [Symbol.source, List.mem_cons, List.mem_append, List.not_mem_nil, or_false] at member
            rcases member with rfl | rfl | inContent | rfl | rfl
            · exact absurd noBracket (by decide)
            · exact absurd noBracket (by decide)
            · rw [own.1 c inContent] at delimits
              cases delimits
            · exact absurd noBracket (by decide)
            · exact absurd noBracket (by decide)
          obtain ⟨between, isBefore, rest⟩ := Tokenised.exists_of_append_eq others whole
          exact later between isBefore rest

/-- At a character stands no placeholder, or one of another style that takes further symbols. -/
theorem pieces_char {c : Char} {symbols : List Symbol}
    (bear : ∀ symbol ∈ .char c :: symbols, symbol.Bears isBracket kept) :
    pieces (Symbol.written (.char c :: symbols)) = .plain c :: pieces (Symbol.written symbols) ∨
      ∃ placeholder first later, placeholder.style ≠ .double ∧ first ≠ [] ∧
        .char c :: symbols = first ++ later ∧
        pieces (Symbol.written (.char c :: symbols)) =
          .token placeholder (Symbol.written first) :: pieces (Symbol.written later) := by
  have noBracket : isBracket c = false := bear _ List.mem_cons_self
  have written : Symbol.written (.char c :: symbols) = c :: Symbol.written symbols := rfl
  cases recognised : recognise none (c :: Symbol.written symbols) with
  | none =>
      rw [written]
      exact .inl (Piece.cut_of_unrecognised readsSlots.ignores recognised)
  | some found =>
      obtain ⟨placeholder, length⟩ := found
      obtain ⟨notDouble, body, d, after, delimits, noEnd, whole, rfl⟩ :=
        exists_end_of_recognise noBracket recognised
      obtain ⟨first, later, isSplit, rfl, rfl⟩ := exists_split_of_delimiter bear delimits noEnd whole
      have taken : Symbol.written (first ++ [.char d]) = Symbol.written first ++ [d] := by
        rw [Symbol.written_append]
        rfl
      refine .inr ⟨placeholder, first ++ [.char d], later, notDouble, by simp, by simpa using isSplit, ?_⟩
      have split : c :: Symbol.written symbols =
          Symbol.written (first ++ [.char d]) ++ Symbol.written later := by
        rw [whole, taken, List.append_assoc, List.singleton_append]
      rw [split] at recognised
      rw [written, split]
      refine Piece.cut_of_recognised readsSlots.ignores _ (by simp [taken]) ?_
      rw [recognised, taken, List.length_append, List.length_singleton]

/-- A token that stands in a structural placeholder of another style. -/
def HeldByOther (all : List (Piece Placeholder)) (content : Text) : Prop :=
  ∃ placeholder source, .token placeholder source ∈ all ∧ placeholder.style ≠ .double ∧
    isStructural placeholder.content = true ∧ (Symbol.slot content).source <:+: source

/-- The tokens that are left once all names have given way to values. -/
def Remains (all : List (Piece Placeholder)) (kept inserted : Text → Prop) (content : Text) : Prop :=
  kept content ∧ (isStructural content = true ∨ HeldByOther all content) ∨ inserted content

section Exchange

variable {context : ContextMap} {all : List (Piece Placeholder)} {inserted : Text → Prop}
  (known : ∀ placeholder source, .token placeholder source ∈ all →
    ∀ name, placeholder.read context ≠ .unknown name)
  (values : ∀ name value modifier, context.lookup name = some value →
    Tokenised isBracket inserted (Modifier.applyGiven modifier value))
include known values

/-- A placeholder among the pieces becomes a tokenised text, when that is known of its source if it
is structural. -/
theorem tokenised_exchanged_token {placeholder : Placeholder} {source : Text}
    (member : .token placeholder source ∈ all)
    (structural : isStructural placeholder.content = true →
      Tokenised isBracket (Remains all kept inserted) source) :
    Tokenised isBracket (Remains all kept inserted) (exchanged context (.token placeholder source)) := by
  rw [exchanged]
  cases isRead : placeholder.read context with
  | structural => exact structural (isStructural_of_read isRead)
  | value value =>
      obtain ⟨name, stored, modifier, found, rfl⟩ := exists_of_read_value isRead
      exact (values name stored modifier found).mono fun _ _ => .inr
  | unknown name => exact absurd isRead (known placeholder source member name)

theorem tokenised_exchanged_slot {content : Text} (clean : Clean content)
    (isKept : IsToken content → kept content)
    (among : ∀ piece ∈ (Symbol.slot content).piecesBy ofToken?, piece ∈ all) :
    Tokenised isBracket (Remains all kept inserted)
      (((Symbol.slot content).piecesBy ofToken?).map (exchanged context)).flatten := by
  by_cases isToken : IsToken content
  · have single : (Symbol.slot content).piecesBy ofToken? =
        [.token ⟨.double, content⟩ (Symbol.slot content).source] := by
      simp [Symbol.piecesBy, ofToken?, isToken]
    rw [single] at among ⊢
    rw [List.map_singleton, List.flatten_singleton]
    exact tokenised_exchanged_token known values (among _ List.mem_cons_self)
      fun structural => .of_slot clean fun _ => .inl ⟨isKept isToken, .inl structural⟩
  · have plain : (Symbol.slot content).piecesBy ofToken? =
        (Symbol.slot content).source.map .plain := by
      simp [Symbol.piecesBy, ofToken?, isToken]
    rw [plain, flatten_exchanged_plain]
    exact .of_slot clean fun other => absurd other isToken

/-- A placeholder of another style becomes its value, or it is structural and keeps its tokens. -/
theorem tokenised_exchanged_other {placeholder : Placeholder} {first : List Symbol}
    (bear : ∀ symbol ∈ first, symbol.Bears isBracket kept) (notDouble : placeholder.style ≠ .double)
    (member : .token placeholder (Symbol.written first) ∈ all) :
    Tokenised isBracket (Remains all kept inserted)
      (exchanged context (.token placeholder (Symbol.written first))) := by
  refine tokenised_exchanged_token known values member fun structural => ?_
  have held : Tokenised isBracket kept (Symbol.written first) := ⟨first, rfl, bear⟩
  exact held.within.mono fun content _ ⟨isKept, within⟩ =>
    .inl ⟨isKept, .inr ⟨placeholder, _, member, notDouble, structural, within⟩⟩

theorem tokenised_exchanged {symbols : List Symbol}
    (bear : ∀ symbol ∈ symbols, symbol.Bears isBracket kept)
    (among : ∀ piece ∈ pieces (Symbol.written symbols), piece ∈ all) :
    Tokenised isBracket (Remains all kept inserted)
      ((pieces (Symbol.written symbols)).map (exchanged context)).flatten := by
  -- a placeholder of another style may hold symbols, so the induction is on their number
  induction size : symbols.length using Nat.strong_induction_on generalizing symbols with
  | h size ih =>
      subst size
      cases symbols with
      | nil => exact .of_lacks Lacks.nil
      | cons symbol symbols =>
          obtain ⟨own, bearLater⟩ := List.forall_mem_cons.mp bear
          cases symbol with
          | slot content =>
              have isCut : pieces (Symbol.written (.slot content :: symbols)) =
                  (Symbol.slot content).piecesBy ofToken? ++ pieces (Symbol.written symbols) :=
                readsSlots.cut_source (show (Symbol.slot content).Bears isDelimiter kept from own) _
              rw [isCut] at among ⊢
              obtain ⟨amongOwn, amongLater⟩ := List.forall_mem_append.mp among
              rw [List.map_append, List.flatten_append]
              exact (tokenised_exchanged_slot known values own.1 own.2 amongOwn).append
                (ih symbols.length (by simp) bearLater amongLater rfl)
          | char c =>
              rcases pieces_char bear with
                isCut | ⟨placeholder, first, later, notDouble, filled, isSplit, isCut⟩
              · rw [isCut] at among ⊢
                obtain ⟨-, amongLater⟩ := List.forall_mem_cons.mp among
                exact (Tokenised.of_lacks (Lacks.cons own Lacks.nil)).append
                  (ih symbols.length (by simp) bearLater amongLater rfl)
              · rw [isCut] at among ⊢
                obtain ⟨isPlaceholder, amongLater⟩ := List.forall_mem_cons.mp among
                rw [isSplit] at bear
                obtain ⟨bearFirst, bearRest⟩ := List.forall_mem_append.mp bear
                have shorter : later.length < (Symbol.char c :: symbols).length := by
                  have firstLength := List.length_pos_iff.mpr filled
                  rw [isSplit, List.length_append]
                  omega
                exact (tokenised_exchanged_other known values bearFirst notDouble isPlaceholder).append
                  (ih later.length shorter bearRest amongLater rfl)

end Exchange

/-- Replacing placeholders, all of which are known, leaves structural tokens, tokens in structural
placeholders of other styles and those of the values. -/
theorem tokenised_resolve {context : ContextMap} {inserted : Text → Prop}
    (values : ∀ name value modifier, context.lookup name = some value →
      Tokenised isBracket inserted (Modifier.applyGiven modifier value))
    (tokenised : Tokenised isBracket kept text) (known : unresolved context text = []) :
    Tokenised isBracket (Remains (pieces text) kept inserted) (resolve context text) := by
  obtain ⟨symbols, rfl, bear⟩ := tokenised
  rw [resolve_eq_flatten]
  exact tokenised_exchanged (fun _ _ => read_ne_unknown known) values bear fun _ => id

end Placeholder

namespace Nested

theorem readsSlots : ReadsSlots recognise isDelimiter (slotToken? recognise) := by
  have noBracket (c : Char) (allowed : (!isBracket c) = true) : isBracket c = false := by
    simpa using allowed
  have ignores : IgnoresBefore recognise := fun _ _ _ => rfl
  refine (ReadsSlots.of_bracketed ignores ?_
    (fun _ _ _ => enclosed?_double_eq_some_iff noBracket)).atDelimiters
  rintro content _ ⟨-, allowed, rfl⟩
  exact ⟨content, fun c member => noBracket c (allowed c member), rfl⟩

variable {context : ContextMap}

def exchanged (context : ContextMap) : Piece Text → Text
  | .plain c => [c]
  | .token name source => (value? context name).getD source

theorem replace_eq_flatten (context : ContextMap) (pieces : List (Piece Text)) :
    replace context pieces = (pieces.map (exchanged context)).flatten := by
  rw [replace, Piece.substitute, List.flatMap_def]
  congr 2
  funext piece
  cases piece <;> rfl

theorem tokenised_replace (values : ∀ name value, context.lookup name = some value →
      Tokenised isDelimiter kept value) (tokenised : Tokenised isDelimiter kept text) :
    Tokenised isDelimiter kept (replace context (Piece.cut recognise text)) := by
  obtain ⟨symbols, rfl, bear⟩ := tokenised
  have become : List.Forall₂ (fun piece text => exchanged context piece = text)
      (symbols.flatMap (Symbol.piecesBy (slotToken? recognise)))
      ((symbols.flatMap (Symbol.piecesBy (slotToken? recognise))).map (exchanged context)) := by
    rw [List.forall₂_map_right_iff, List.forall₂_same]
    exact fun _ _ => rfl
  rw [replace_eq_flatten, readsSlots.cut_written bear]
  refine .of_exchanged (fun c text plain => plain.symm) (fun symbol member _ => bear symbol member)
    (fun content name text member isToken becomes => ?_) become
  rw [← becomes, exchanged]
  cases found : value? context name with
  | none => exact ⟨[.slot content], by simp [Symbol.written], by simpa using bear _ member⟩
  | some value => exact values _ value found

/-- Replacing placeholders in a value keeps it tokenised when all values are. -/
theorem tokenised_resolve (values : ∀ name value, context.lookup name = some value →
      Tokenised isDelimiter kept value) (depth : Nat) (tokenised : Tokenised isDelimiter kept text) :
    Tokenised isDelimiter kept (resolve context depth text) := by
  induction depth generalizing text with
  | zero => exact tokenised
  | succ depth ih =>
      rw [resolve]
      split
      · exact ih (tokenised_replace values tokenised)
      · exact tokenised

end Nested

end Covenant
