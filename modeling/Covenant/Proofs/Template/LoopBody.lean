import Covenant.Proofs.Outcome
import Covenant.Proofs.Template.Bracket
import Covenant.Proofs.Template.Part
import Covenant.Proofs.Text.Case
import Covenant.Template.Loop

/-!
# Tags and bodies of loops

The tags `[[#NAME]]` and `[[/NAME]]` are found wherever they are written.  A name in double
brackets is no tag when it begins with neither mark, and single brackets never are, so the
characters of such a name are found as plain characters.
-/

namespace Covenant.Loop

/-- Letters, digits and underscores, at least one of them. -/
def IsName (name : Text) : Prop := name ≠ [] ∧ ∀ c ∈ name, Naming.isNameChar c = true

instance : DecidablePred IsName := fun name =>
  have := List.decidableBAll (fun c => Naming.isNameChar c = true) name
  inferInstanceAs (Decidable (name ≠ [] ∧ ∀ c ∈ name, Naming.isNameChar c = true))

theorem toNat_lt_of_isNameChar {c : Char} (nameChar : Naming.isNameChar c = true) :
    c.toNat < 0x80 := by
  have upTo (d : Char) (ascii : d.toNat < 0x80) (below : c ≤ d) : c.toNat < 0x80 :=
    Nat.lt_of_le_of_lt (UInt32.le_iff_toNat_le.mp (Char.le_def.mp below)) ascii
  simp only [Naming.isNameChar, Naming.isLower, Naming.isUpper, Naming.isNameDigit,
    Bool.or_eq_true, Bool.and_eq_true, decide_eq_true_eq] at nameChar
  rcases nameChar with ((⟨-, small⟩ | ⟨-, capital⟩) | ⟨-, digit⟩) | rfl
  · exact upTo 'z' (by decide) small
  · exact upTo 'Z' (by decide) capital
  · exact upTo '9' (by decide) digit
  · decide

theorem isBlank_of_isNameChar {c : Char} (nameChar : Naming.isNameChar c = true) :
    isBlank c = false := by
  have ascii : ∀ code < 0x80, Naming.isNameChar (Char.ofNat code) = true →
      isBlank (Char.ofNat code) = false := by decide +kernel
  have own := ascii c.toNat (toNat_lt_of_isNameChar nameChar)
  rw [Char.ofNat_toNat] at own
  exact own nameChar

namespace IsName

variable {name : Text}

theorem trimStart_append (isName : IsName name) (rest : Text) :
    Text.trimStart (name ++ rest) = name ++ rest := by
  obtain ⟨c, name, rfl⟩ := List.exists_cons_of_ne_nil isName.1
  exact Text.trimStart_of_not_blank (isBlank_of_isNameChar (isName.2 c (by simp))) _

theorem takeWhile_closing (isName : IsName name) (rest : Text) :
    (name ++ ']' :: rest).takeWhile Naming.isNameChar = name := by
  rw [List.takeWhile_append_of_pos isName.2, List.takeWhile_cons_of_neg (by decide),
    List.append_nil]

theorem trim_eq (isName : IsName name) : Text.trim name = name := by
  have notBlank : ∀ c ∈ name, ¬ isBlank c = true := by
    intro c member
    simp [isBlank_of_isNameChar (isName.2 c member)]
  have start := isName.trimStart_append []
  rw [List.append_nil] at start
  rw [Text.trim, start, Text.trimEnd_eq_rdropWhile, List.rdropWhile_eq_self_iff]
  exact fun filled => notBlank _ (List.getLast_mem filled)

end IsName

theorem tagWith?_of_isName {mark : Char} (notBlank : isBlank mark = false) {name : Text}
    (isName : IsName name) (rest : Text) :
    tagWith? mark ('[' :: '[' :: mark :: (name ++ (']' :: ']' :: rest))) = some (name, rest) := by
  have afterMark : Text.afterBlanksAnd? mark (mark :: (name ++ (']' :: ']' :: rest))) =
      some (name ++ (']' :: ']' :: rest)) :=
    (Text.afterBlanksAnd?_eq_some_iff notBlank).mpr ⟨[], by simp, rfl⟩
  have atClosing : Text.trimStart (']' :: ']' :: rest) = ']' :: ']' :: rest :=
    Text.trimStart_of_not_blank (by decide) _
  have filled : name.isEmpty = false := by simpa using isName.1
  simp only [tagWith?, Text.afterOpening?, Option.bind_eq_bind, Option.bind_some, afterMark,
    isName.trimStart_append, isName.takeWhile_closing, filled, Bool.false_eq_true, if_false,
    List.drop_left, atClosing, Text.afterClosing?]

/-- A text in which the mark does not follow the opening brackets starts with no tag. -/
theorem tagWith?_of_other_start {mark : Char} {text : Text}
    (other : (Text.trimStart text).head? ≠ some mark) :
    tagWith? mark ('[' :: '[' :: text) = none := by
  have noMark : Text.afterBlanksAnd? mark text = none := by
    rw [Text.afterBlanksAnd?]
    split
    · rename_i d rest trimmed
      rw [trimmed] at other
      simp_all
    · rfl
  simp [tagWith?, Text.afterOpening?, noMark]

theorem tagWith?_of_single {mark c : Char} (notOpening : c ≠ '[') (text : Text) :
    tagWith? mark ('[' :: c :: text) = none := by
  simp [tagWith?, Text.afterOpening?, notOpening]

theorem tagWith?_of_plain {mark c : Char} (notOpening : c ≠ '[') (text : Text) :
    tagWith? mark (c :: text) = none := by
  simp [tagWith?, Text.afterOpening?, notOpening]

/-- How an opening or a closing tag is written. -/
def tagText (isOpen : Bool) (name : Text) : Text :=
  '[' :: '[' :: (if isOpen then '#' else '/') :: (name ++ [']', ']'])

theorem recognise_tagText {name : Text} (isName : IsName name) (isOpen : Bool) (rest : Text) :
    recognise none (tagText isOpen name ++ rest) =
      some (⟨isOpen, name⟩, (tagText isOpen name).length) := by
  have sized : (tagText isOpen name ++ rest).length - rest.length =
      (tagText isOpen name).length := by
    simp
  cases isOpen with
  | true =>
      have opens : tagWith? '#' (tagText true name ++ rest) = some (name, rest) := by
        simpa [tagText] using tagWith?_of_isName (by decide) isName rest
      simp only [recognise, opens, Option.map_some, Option.some_or, sized]
  | false =>
      have noOpening : tagWith? '#' (tagText false name ++ rest) = none := by
        have slash : Text.trimStart ('/' :: (name ++ ']' :: ']' :: rest)) =
            '/' :: (name ++ ']' :: ']' :: rest) := Text.trimStart_of_not_blank (by decide) _
        simpa [tagText] using @tagWith?_of_other_start '#' _ (by rw [slash]; simp)
      have closes : tagWith? '/' (tagText false name ++ rest) = some (name, rest) := by
        simpa [tagText] using tagWith?_of_isName (by decide) isName rest
      simp only [recognise, noOpening, closes, Option.map_some, Option.map_none, Option.none_or,
        sized]

theorem recognise_ignoresBefore : IgnoresBefore recognise := fun _ _ _ => rfl

theorem reads_tagOf {name : Text} (isName : IsName name) (isOpen : Bool) :
    markup.Reads [.tagged (markup.tagOf ⟨⟨isOpen, name⟩, 0, tagText isOpen name⟩)] :=
  @BlockMarkup.Reads.tagged markup recognise_ignoresBefore ⟨isOpen, name⟩ _ (by
      simp [BlockMarkup.tagOf, tagText])
    (recognise_tagText isName isOpen) rfl

theorem reads_plain {c : Char} (notOpening : c ≠ '[') : markup.Reads [.plain c] := by
  apply BlockMarkup.Reads.plain recognise_ignoresBefore
  intro rest
  simp [markup, recognise, tagWith?_of_plain notOpening]

theorem reads_plains {text : Text} (noOpening : ∀ c ∈ text, c ≠ '[') :
    markup.Reads (Part.plains text) := by
  apply BlockMarkup.Reads.of_forall
  intro part member
  obtain ⟨c, inText, rfl⟩ := List.mem_map.mp member
  exact reads_plain (noOpening c inText)

/-- A name without brackets that begins with neither mark. -/
def IsUnmarked (name : Text) : Prop :=
  BracketFree name ∧ (Text.trim name).head? ≠ some '#' ∧ (Text.trim name).head? ≠ some '/'

instance : DecidablePred IsUnmarked := fun _ => inferInstanceAs (Decidable (_ ∧ _ ∧ _))

theorem IsUnmarked.head?_ne {name : Text} (unmarked : IsUnmarked name) {mark : Char}
    (isMark : mark = '#' ∨ mark = '/') (rest : Text) :
    (Text.trimStart (name ++ ']' :: rest)).head? ≠ some mark := by
  obtain ⟨-, notHash, notSlash⟩ := unmarked
  rw [Text.head?_trim] at notHash notSlash
  rw [Text.trimStart_append_cons name (by decide)]
  cases kept : Text.trimStart name with
  | nil => rcases isMark with rfl | rfl <;> simp
  | cons c tail =>
      rw [kept] at notHash notSlash
      rcases isMark with rfl | rfl
      · exact notHash
      · exact notSlash

theorem reads_brackets {name : Text} (unmarked : IsUnmarked name) :
    markup.Reads (Part.plains ('[' :: '[' :: (name ++ [']', ']']))) := by
  have noOpening : ∀ c ∈ name ++ [']', ']'], c ≠ '[' := by
    intro c member
    rcases List.mem_append.mp member with member | member
    · rintro rfl
      exact absurd (unmarked.1 _ member) (by decide)
    · rintro rfl
      simp at member
  intro rest
  have first : markup.recognise none ('[' :: '[' :: (name ++ ']' :: ']' :: rest)) = none := by
    simp [markup, recognise, tagWith?_of_other_start (unmarked.head?_ne (.inl rfl) _),
      tagWith?_of_other_start (unmarked.head?_ne (.inr rfl) _)]
  have second : markup.recognise none ('[' :: (name ++ ']' :: ']' :: rest)) = none := by
    cases name with
    | nil => simp [markup, recognise, tagWith?_of_single]
    | cons c name =>
        simp [markup, recognise, tagWith?_of_single (noOpening c (by simp))]
  have inner := reads_plains noOpening rest
  simp only [BlockMarkup.parts, Part.written_plains, List.append_assoc, List.cons_append,
    List.nil_append] at inner ⊢
  have ignores : IgnoresBefore markup.recognise := recognise_ignoresBefore
  rw [Piece.cut_of_unrecognised ignores first, Piece.cut_of_unrecognised ignores second,
    List.map_cons, List.map_cons, inner]
  rfl

end Covenant.Loop

/-!
## Bodies of loops

The body of a loop is a row of symbols: characters, and names in double brackets.  Written as
text it is cut into the same symbols again, so whether a body uses the variables of a collection,
and what it becomes for one item, can be said symbol by symbol.
-/

namespace Covenant

namespace Loop

/-- A character, or a name in double brackets. -/
inductive Symbol where
  | char (c : Char)
  | slot (name : Text)

namespace Symbol

def source : Symbol → Text
  | char c => [c]
  | slot name => '[' :: '[' :: (name ++ [']', ']'])

/-- The text in which symbols are written. -/
def written (symbols : List Symbol) : Text := symbols.flatMap source

def chars (text : Text) : List Symbol := text.map char

/-- The characters are no brackets, and a name is on one line and begins with no mark. -/
def Legible : Symbol → Prop
  | char c => isBracket c = false
  | slot name => IsUnmarked name ∧ ∀ c ∈ name, isLineBreak c = false

instance : DecidablePred Legible
  | char c => inferInstanceAs (Decidable (isBracket c = false))
  | slot name =>
      have := List.decidableBAll (fun c => isLineBreak c = false) name
      inferInstanceAs (Decidable (IsUnmarked name ∧ ∀ c ∈ name, isLineBreak c = false))

/-- Modifier and name of the variable that a symbol stands for.  Empty brackets are none. -/
def named? : Symbol → Option (Option Modifier × Text)
  | char _ => none
  | slot name => if name.isEmpty then none else some (Modifier.split name)

/-- Whether the name of a variable begins with the stem of a collection. -/
def hasStem (stem : Text) (symbol : Symbol) : Bool :=
  symbol.named?.any fun (_, name) => (Text.upper stem).isPrefixOf (Text.upper name)

/-- The symbols after a variable among the values has been replaced. -/
def filled (values : Members) (symbol : Symbol) : List Symbol :=
  match symbol.named? with
  | none => [symbol]
  | some (modifier, name) =>
      match valueOf? values name with
      | some (.text content) => chars (Modifier.applyGiven modifier content)
      | _ => [symbol]

def isBlank : Symbol → Bool
  | char c => Covenant.isBlank c
  | slot _ => false

/-- The symbols without the white space around them. -/
def trimmed (symbols : List Symbol) : List Symbol :=
  (symbols.dropWhile isBlank).rdropWhile isBlank

/-- The pieces into which the text of a symbol is cut. -/
def pieces : Symbol → List (Piece Text)
  | char c => [.plain c]
  | slot name =>
      if name.isEmpty then ['[', '[', ']', ']'].map .plain else [.token name (slot name).source]

@[simp]
theorem written_nil : written [] = [] := rfl

@[simp]
theorem written_append (first second : List Symbol) :
    written (first ++ second) = written first ++ written second := by
  simp [written]

@[simp]
theorem written_chars (text : Text) : written (chars text) = text := by
  induction text with
  | nil => rfl
  | cons c text ih => simpa [chars, written, source] using ih

theorem variables_ignoreBefore : IgnoresBefore recogniseVariable := fun _ _ _ => rfl

theorem recogniseVariable_of_ne {c : Char} (notOpening : c ≠ '[') (text : Text) :
    recogniseVariable none (c :: text) = none := by
  simp [recogniseVariable, enclosed?, List.isPrefixOf, Ne.symm notOpening]

theorem recogniseVariable_slot {name : Text} (legible : (slot name).Legible) (filled : name ≠ [])
    (rest : Text) :
    recogniseVariable none ((slot name).source ++ rest) =
      some (name, (slot name).source.length) := by
  obtain ⟨⟨free, -⟩, oneLine⟩ := legible
  have allowed : ∀ c ∈ name, Placeholder.inSquareBrackets c = true := by
    intro c member
    simp [Placeholder.inSquareBrackets, free c member, oneLine c member]
  have content : (name ++ ']' :: ']' :: rest).takeWhile Placeholder.inSquareBrackets = name := by
    rw [List.takeWhile_append_of_pos allowed, List.takeWhile_cons_of_neg (by decide),
      List.append_nil]
  simp [recogniseVariable, enclosed?, source, content, filled, List.isPrefixOf]
  omega

/-- A symbol is cut off from whatever it is written in front of. -/
theorem cut_source {symbol : Symbol} (legible : symbol.Legible) (rest : Text) :
    Piece.cut recogniseVariable (symbol.source ++ rest) =
      symbol.pieces ++ Piece.cut recogniseVariable rest := by
  cases symbol with
  | char c =>
      have notOpening : c ≠ '[' := by
        rintro rfl
        exact absurd (show isBracket '[' = false from legible) (by decide)
      exact Piece.cut_of_unrecognised variables_ignoreBefore (recogniseVariable_of_ne notOpening _)
  | slot name =>
      by_cases empty : name = []
      · subst empty
        have first : recogniseVariable none ('[' :: '[' :: ']' :: ']' :: rest) = none := by
          simp [recogniseVariable, enclosed?, Placeholder.inSquareBrackets, isBracket]
        have second : recogniseVariable none ('[' :: ']' :: ']' :: rest) = none := by
          simp [recogniseVariable, enclosed?, List.isPrefixOf]
        have closing (text : Text) := @recogniseVariable_of_ne ']' (by decide) text
        simp only [source, List.nil_append, List.cons_append]
        rw [Piece.cut_of_unrecognised variables_ignoreBefore first,
          Piece.cut_of_unrecognised variables_ignoreBefore second,
          Piece.cut_of_unrecognised variables_ignoreBefore (closing _),
          Piece.cut_of_unrecognised variables_ignoreBefore (closing _)]
        rfl
      · have pieceOfSlot : (slot name).pieces = [.token name (slot name).source] := by
          simp [pieces, empty]
        rw [pieceOfSlot]
        exact Piece.cut_of_recognised variables_ignoreBefore rest (by simp [source])
          (recogniseVariable_slot legible empty rest)

theorem pieces_written {body : List Symbol} (legible : ∀ symbol ∈ body, symbol.Legible) :
    Loop.pieces (written body) = body.flatMap pieces := by
  induction body with
  | nil => rfl
  | cons symbol body ih =>
      have first := cut_source (legible symbol (by simp)) (written body)
      have later := ih fun other member => legible other (by simp [member])
      rw [List.flatMap_cons, ← later]
      exact first

theorem usesStem_written {body : List Symbol} (legible : ∀ symbol ∈ body, symbol.Legible)
    (stem : Text) : usesStem stem (written body) = body.any (hasStem stem) := by
  rw [usesStem, pieces_written legible, List.any_flatMap]
  congr 1
  funext symbol
  cases symbol with
  | char c => simp [pieces, hasStem, named?]
  | slot name => by_cases empty : name = [] <;> simp [pieces, hasStem, named?, empty]

/-- The variables of an item are texts without brackets. -/
def PlainValues (values : Members) : Prop :=
  ∀ pair ∈ values, ∃ content, pair.2 = .text content ∧ BracketFree content

theorem PlainValues.valueOf? {values : Members} (plain : PlainValues values) {name : Text}
    {value : Value} (found : valueOf? values name = some value) :
    ∃ content, value = .text content ∧ BracketFree content := by
  simp only [Loop.valueOf?, Option.map_eq_some_iff] at found
  obtain ⟨pair, found, rfl⟩ := found
  exact plain pair (List.mem_reverse.mp (List.mem_of_find?_eq_some found))

def textOf (values : Members) : Piece Text → Text
  | .plain c => [c]
  | .token content source =>
      let (modifier, name) := Modifier.split content
      match Loop.valueOf? values name with
      | some (.text content) => Modifier.applyGiven modifier content
      | _ => source

theorem pieceValue_of_plainValues {values : Members} (plain : PlainValues values)
    (piece : Piece Text) : pieceValue values piece = .ok (.text (textOf values piece)) := by
  cases piece with
  | plain c => rfl
  | token content source =>
      simp only [pieceValue, textOf]
      cases found : Loop.valueOf? values (Modifier.split content).2 with
      | none => rfl
      | some value =>
          obtain ⟨text, rfl, -⟩ := plain.valueOf? found
          cases (Modifier.split content).1 <;> rfl

theorem written_filled (values : Members) (symbol : Symbol) :
    symbol.pieces.flatMap (textOf values) = written (symbol.filled values) := by
  cases symbol with
  | char c => rfl
  | slot name =>
      by_cases empty : name = []
      · subst empty
        rfl
      · simp only [pieces, filled, named?, List.isEmpty_iff, empty, if_false, List.flatMap_cons,
          List.flatMap_nil, List.append_nil, textOf]
        split
        · simp_all
        · simp_all [written]

theorem joinTexts_texts (texts : List Text) :
    joinTexts (texts.map Value.text) = .ok texts.flatten := by
  have joined : texts.mapM (fun content => (.ok content : Outcome Text)) = .ok (texts.map id) :=
    Outcome.mapM_eq_ok fun _ _ => rfl
  rw [List.map_id] at joined
  rw [joinTexts, List.mapM_map]
  change (texts.mapM (fun content => (.ok content : Outcome Text)) >>= fun texts =>
    pure texts.flatten) = .ok texts.flatten
  rw [joined]
  rfl

/-- A body is rendered for an item by replacing the variables of the item. -/
theorem renderItem_written {body : List Symbol} (legible : ∀ symbol ∈ body, symbol.Legible)
    {values : Members} (plain : PlainValues values) :
    renderItem values (written body) = .ok (written (body.flatMap (filled values))) := by
  have replaced : (body.flatMap pieces).mapM (pieceValue values) =
      .ok ((body.flatMap pieces).map fun piece => .text (textOf values piece)) :=
    Outcome.mapM_eq_ok fun piece _ => pieceValue_of_plainValues plain piece
  have texts : (body.flatMap pieces).map (fun piece => Value.text (textOf values piece)) =
      ((body.flatMap pieces).map (textOf values)).map Value.text := by
    simp
  have sameText : ((body.flatMap pieces).map (textOf values)).flatten =
      written (body.flatMap (filled values)) := by
    rw [← List.flatMap_def, List.flatMap_assoc, written, List.flatMap_assoc]
    congr 1
    funext symbol
    exact written_filled values symbol
  rw [renderItem, pieces_written legible, replaced, texts]
  exact (joinTexts_texts _).trans (congrArg Except.ok sameText)

theorem legible_chars {text : Text} (free : BracketFree text) :
    ∀ symbol ∈ chars text, symbol.Legible := by
  intro symbol member
  obtain ⟨c, inText, rfl⟩ := List.mem_map.mp member
  exact free c inText

theorem legible_filled {values : Members} (plain : PlainValues values) {symbol : Symbol}
    (legible : symbol.Legible) : ∀ other ∈ symbol.filled values, other.Legible := by
  have single : ∀ other ∈ [symbol], other.Legible := by simpa using legible
  rw [filled]
  split
  · exact single
  · rename_i modifier name _
    split
    · rename_i content found
      obtain ⟨text, same, free⟩ := plain.valueOf? found
      injection same with same
      subst same
      exact legible_chars (free.applyGiven modifier)
    · exact single

theorem legible_trimmed {symbols : List Symbol} (legible : ∀ symbol ∈ symbols, symbol.Legible) :
    ∀ symbol ∈ trimmed symbols, symbol.Legible := by
  intro symbol member
  exact legible symbol
    ((List.dropWhile_sublist isBlank).subset ((List.rdropWhile_prefix _ _).subset member))

theorem trim_written (symbols : List Symbol) :
    Text.trim (written symbols) = written (trimmed symbols) := by
  apply Text.trim_flatMap
  intro symbol _
  cases symbol with
  | char c =>
      by_cases blank : Covenant.isBlank c = true
      · exact .inl ⟨blank, c, rfl, blank⟩
      · simp only [Bool.not_eq_true] at blank
        exact .inr ⟨blank, ⟨c, [], rfl, blank⟩, [], c, rfl, blank⟩
  | slot name =>
      exact .inr ⟨rfl, ⟨'[', '[' :: (name ++ [']', ']']), rfl, by decide⟩,
        '[' :: '[' :: (name ++ [']']), ']', by simp [source], by decide⟩

end Symbol

end Loop

end Covenant
