import Covenant.Proofs.Template.Filled

/-!
# Values that refer to values

The tokens of a text refer to values, whose tokens refer to values again.  `Expands` says what becomes
of a text when every token that has a value gives way to what its value expands to.  Passes over the
whole text replace tokens of all ranks side by side, and stop early when there is nothing to replace;
if all chains of references are as short as the depth, they arrive at the expansion all the same.
Whatever the references are, passes can be divided into two runs.
-/

namespace Covenant.Nested

open Loop (Symbol)

variable {context : ContextMap} {depth : Nat} {name text value : Text} {symbols rest : List Symbol}

/-! ### Regular texts -/

/-- A character that is no bracket, or a name in double brackets. -/
def IsRegularSymbol : Symbol → Prop
  | .char c => isBracket c = false
  | .slot name => name ≠ [] ∧ BracketFree name

instance : DecidablePred IsRegularSymbol
  | .char c => inferInstanceAs (Decidable (isBracket c = false))
  | .slot name => inferInstanceAs (Decidable (name ≠ [] ∧ BracketFree name))

/-- All brackets of a text stand in tokens. -/
def IsRegular (text : Text) : Prop :=
  ∃ symbols, text = Symbol.written symbols ∧ ∀ symbol ∈ symbols, IsRegularSymbol symbol

def symbolOf : Piece Text → Symbol
  | .plain c => .char c
  | .token name _ => .slot name

/-- The characters and tokens of a text in order. -/
def symbolsOf (text : Text) : List Symbol := (Piece.cut recognise text).map symbolOf

def pieceOf : Symbol → Piece Text
  | .char c => .plain c
  | .slot name => .token name (Symbol.slot name).source

theorem symbolOf_pieceOf (symbol : Symbol) : symbolOf (pieceOf symbol) = symbol := by
  cases symbol <;> rfl

theorem recognise_of_ne {c : Char} (notOpening : c ≠ '[') (rest : Text) :
    recognise none (c :: rest) = none := by
  simp [recognise, enclosed?, List.isPrefixOf, Ne.symm notOpening]

theorem recognise_slot (filled : name ≠ []) (free : BracketFree name) (rest : Text) :
    recognise none ((Symbol.slot name).source ++ rest) =
      some (name, (Symbol.slot name).source.length) := by
  have noBracket (c : Char) (allowed : (!isBracket c) = true) : isBracket c = false := by
    simpa using allowed
  refine (enclosed?_double_eq_some_iff noBracket).mpr ⟨_, rest, ⟨filled, ?_, rfl⟩, rfl, rfl⟩
  exact fun c member => by simp [free c member]

theorem cut_written (regular : ∀ symbol ∈ symbols, IsRegularSymbol symbol) :
    Piece.cut recognise (Symbol.written symbols) = symbols.map pieceOf := by
  have ignores : IgnoresBefore recognise := fun _ _ _ => rfl
  induction symbols with
  | nil => rfl
  | cons symbol symbols ih =>
      obtain ⟨own, later⟩ := List.forall_mem_cons.mp regular
      rw [List.map_cons, ← ih later]
      cases symbol with
      | char c =>
          have notOpening : c ≠ '[' := by
            rintro rfl
            exact absurd (show isBracket '[' = false from own) (by decide)
          exact Piece.cut_of_unrecognised ignores (recognise_of_ne notOpening _)
      | slot name =>
          exact Piece.cut_of_recognised ignores _ (by simp [Symbol.source])
            (recognise_slot own.1 own.2 _)

theorem symbolsOf_written (regular : ∀ symbol ∈ symbols, IsRegularSymbol symbol) :
    symbolsOf (Symbol.written symbols) = symbols := by
  rw [symbolsOf, cut_written regular, List.map_map]
  exact (List.map_congr_left fun symbol _ => symbolOf_pieceOf symbol).trans (List.map_id _)

theorem isRegular_iff : IsRegular text ↔
    text = Symbol.written (symbolsOf text) ∧ ∀ symbol ∈ symbolsOf text, IsRegularSymbol symbol := by
  constructor
  · rintro ⟨symbols, rfl, regular⟩
    rw [symbolsOf_written regular]
    exact ⟨rfl, regular⟩
  · rintro ⟨written, regular⟩
    exact ⟨_, written, regular⟩

instance : DecidablePred IsRegular := fun _ =>
  have := List.decidableBAll IsRegularSymbol
  decidable_of_iff _ isRegular_iff.symm

/-! ### Expansions -/

/-- What symbols become when every token that has a value gives way to what its value expands to.
Tokens without a value stay. -/
inductive Expands (context : ContextMap) : List Symbol → Text → Prop where
  | nil : Expands context [] []
  | char {rest : List Symbol} {text : Text} (c : Char) (later : Expands context rest text) :
      Expands context (.char c :: rest) (c :: text)
  | unknown {name : Text} {rest : List Symbol} {text : Text} (missing : value? context name = none)
      (later : Expands context rest text) :
      Expands context (.slot name :: rest) ((Symbol.slot name).source ++ text)
  | known {name value expanded : Text} {rest : List Symbol} {text : Text}
      (given : value? context name = some value) (inner : Expands context (symbolsOf value) expanded)
      (later : Expands context rest text) :
      Expands context (.slot name :: rest) (expanded ++ text)

namespace Expands

theorem unique {other : Text} (expands : Expands context symbols text)
    (otherwise : Expands context symbols other) : text = other := by
  induction expands generalizing other with
  | nil =>
      cases otherwise
      rfl
  | char c later ih =>
      cases otherwise with
      | char _ otherLater => rw [ih otherLater]
  | unknown missing later ih =>
      cases otherwise with
      | unknown _ otherLater => rw [ih otherLater]
      | known given _ _ => rw [missing] at given; cases given
  | known given inner later ihInner ih =>
      cases otherwise with
      | unknown missing _ => rw [given] at missing; cases missing
      | known otherGiven otherInner otherLater =>
          obtain rfl := Option.some.inj (given.symm.trans otherGiven)
          rw [ihInner otherInner, ih otherLater]

theorem exists_of_append {first second : List Symbol}
    (expands : Expands context (first ++ second) text) :
    ∃ before after, text = before ++ after ∧ Expands context first before ∧
      Expands context second after := by
  induction first generalizing text with
  | nil => exact ⟨[], text, rfl, .nil, expands⟩
  | cons symbol first ih =>
      rw [List.cons_append] at expands
      cases expands with
      | char c later =>
          obtain ⟨before, after, rfl, isBefore, isAfter⟩ := ih later
          exact ⟨c :: before, after, rfl, .char c isBefore, isAfter⟩
      | unknown missing later =>
          obtain ⟨before, after, rfl, isBefore, isAfter⟩ := ih later
          exact ⟨_, after, (List.append_assoc ..).symm, .unknown missing isBefore, isAfter⟩
      | known given inner later =>
          obtain ⟨before, after, rfl, isBefore, isAfter⟩ := ih later
          exact ⟨_, after, (List.append_assoc ..).symm, .known given inner isBefore, isAfter⟩

/-- Symbols without known tokens are their own expansion. -/
theorem of_unknown (unknown : ∀ name, .slot name ∈ symbols → value? context name = none) :
    Expands context symbols (Symbol.written symbols) := by
  induction symbols with
  | nil => exact .nil
  | cons symbol symbols ih =>
      have later := ih fun name member => unknown name (List.mem_cons_of_mem symbol member)
      cases symbol with
      | char c => exact .char c later
      | slot name => exact .unknown (unknown name List.mem_cons_self) later

end Expands

/-! ### One pass -/

/-- The symbols that a pass puts in the place of one. -/
def next (context : ContextMap) : Symbol → List Symbol
  | .char c => [.char c]
  | .slot name => ((value? context name).map symbolsOf).getD [.slot name]

theorem next_of_known (given : value? context name = some value) :
    next context (.slot name) = symbolsOf value := by
  rw [next, given, Option.map_some, Option.getD_some]

theorem next_of_unknown (missing : value? context name = none) :
    next context (.slot name) = [.slot name] := by
  rw [next, missing, Option.map_none, Option.getD_none]

/-- A pass leaves the expansion as it is. -/
theorem Expands.of_next (expands : Expands context (symbols.flatMap (next context)) text) :
    Expands context symbols text := by
  induction symbols generalizing text with
  | nil => exact expands
  | cons symbol symbols ih =>
      rw [List.flatMap_cons] at expands
      obtain ⟨before, after, rfl, isBefore, isAfter⟩ := expands.exists_of_append
      cases symbol with
      | char c =>
          cases isBefore with
          | char _ none =>
              cases none
              exact .char c (ih isAfter)
      | slot name =>
          cases given : value? context name with
          | some value =>
              rw [next_of_known given] at isBefore
              exact .known given isBefore (ih isAfter)
          | none =>
              rw [next_of_unknown given] at isBefore
              obtain rfl := isBefore.unique (.unknown given .nil)
              rw [List.append_nil]
              exact .unknown given (ih isAfter)

/-- The values of all tokens of a text are regular. -/
def HasRegularValues (context : ContextMap) (text : Text) : Prop :=
  ∀ name value, .slot name ∈ symbolsOf text → value? context name = some value → IsRegular value

theorem isRegularSymbol_of_next (regular : IsRegular text) (values : HasRegularValues context text) :
    ∀ symbol ∈ (symbolsOf text).flatMap (next context), IsRegularSymbol symbol := by
  intro symbol member
  have own := (isRegular_iff.mp regular).2
  obtain ⟨outer, isOuter, inNext⟩ := List.mem_flatMap.mp member
  cases outer with
  | char c =>
      obtain rfl := List.mem_singleton.mp inNext
      exact own _ isOuter
  | slot name =>
      cases given : value? context name with
      | some value =>
          rw [next_of_known given] at inNext
          exact (isRegular_iff.mp (values name value isOuter given)).2 symbol inNext
      | none =>
          rw [next_of_unknown given] at inNext
          obtain rfl := List.mem_singleton.mp inNext
          exact own _ isOuter

/-- A pass over a regular text replaces each symbol on its own. -/
theorem replace_eq_written (regular : IsRegular text) (values : HasRegularValues context text) :
    replace context (Piece.cut recognise text) =
      Symbol.written ((symbolsOf text).flatMap (next context)) := by
  obtain ⟨whole, own⟩ := isRegular_iff.mp regular
  have cut : Piece.cut recognise text = (symbolsOf text).map pieceOf := by
    rw [← cut_written own, ← whole]
  rw [replace_eq_flatten, cut, List.map_map, Symbol.written, List.flatMap_assoc, List.flatMap_def]
  congr 1
  refine List.map_congr_left fun symbol member => ?_
  cases symbol with
  | char c => rfl
  | slot name =>
      change (value? context name).getD (Symbol.slot name).source = _
      cases given : value? context name with
      | some value =>
          rw [next_of_known given, Option.getD_some]
          exact (isRegular_iff.mp (values name value member given)).1
      | none =>
          rw [next_of_unknown given, Option.getD_none, List.flatMap_singleton]

theorem isRegular_replace (regular : IsRegular text) (values : HasRegularValues context text) :
    IsRegular (replace context (Piece.cut recognise text)) :=
  ⟨_, replace_eq_written regular values, isRegularSymbol_of_next regular values⟩

theorem symbolsOf_replace (regular : IsRegular text) (values : HasRegularValues context text) :
    symbolsOf (replace context (Piece.cut recognise text)) =
      (symbolsOf text).flatMap (next context) := by
  rw [replace_eq_written regular values, symbolsOf_written (isRegularSymbol_of_next regular values)]

theorem isChanged_cut_iff : isChanged context (Piece.cut recognise text) = true ↔
    ∃ name value, .slot name ∈ symbolsOf text ∧ value? context name = some value := by
  rw [isChanged, List.any_eq_true]
  constructor
  · rintro ⟨piece, member, known⟩
    cases piece with
    | plain c => cases known
    | token name source =>
        obtain ⟨value, given⟩ := Option.isSome_iff_exists.mp known
        exact ⟨name, value, List.mem_map.mpr ⟨_, member, rfl⟩, given⟩
  · rintro ⟨name, value, member, given⟩
    obtain ⟨piece, inCut, isSlot⟩ := List.mem_map.mp member
    cases piece with
    | plain c => cases isSlot
    | token other source =>
        cases isSlot
        exact ⟨_, inCut, by simp [given]⟩

theorem unknown_of_unchanged (unchanged : isChanged context (Piece.cut recognise text) = false)
    (member : .slot name ∈ symbolsOf text) : value? context name = none := by
  rw [Option.eq_none_iff_forall_ne_some]
  intro value given
  rw [isChanged_cut_iff.mpr ⟨name, value, member, given⟩] at unchanged
  cases unchanged

/-! ### Chains of references -/

/-- The texts that the references in a text lead to, with the number of references on the way: the
value of a token in the text, the value of a token in that value, and so on. -/
inductive Leads (context : ContextMap) : Text → Nat → Text → Prop where
  | here (text : Text) : Leads context text 0 text
  | step {text name value last : Text} {count : Nat} (isToken : .slot name ∈ symbolsOf text)
      (given : value? context name = some value) (later : Leads context value count last) :
      Leads context text (count + 1) last

/-- Every chain of references ends within the depth, so none runs in a circle, and all texts that they
lead to are regular. -/
structure EndsWithin (context : ContextMap) (depth : Nat) (text : Text) : Prop where
  bounded : ∀ count last, Leads context text count last → count ≤ depth
  regular : ∀ count last, Leads context text count last → IsRegular last

/-- The value of a token, if there is one, has a property. -/
def ValueHas (context : ContextMap) (holds : Text → Prop) : Symbol → Prop
  | .char _ => True
  | .slot name => ∀ value ∈ value? context name, holds value

instance (holds : Text → Prop) [DecidablePred holds] : DecidablePred (ValueHas context holds)
  | .char _ => isTrue trivial
  | .slot name => inferInstanceAs (Decidable (∀ value ∈ value? context name, holds value))

theorem forall_valueHas_iff {holds : Text → Prop} :
    (∀ symbol ∈ symbols, ValueHas context holds symbol) ↔
      ∀ name value, .slot name ∈ symbols → value? context name = some value → holds value := by
  constructor
  · exact fun each name value member given => each _ member value given
  · intro each symbol member
    cases symbol with
    | char c => trivial
    | slot name => exact fun value given => each name value member given

theorem Leads.trans {middle last : Text} {first second : Nat} (leads : Leads context text first middle)
    (onward : Leads context middle second last) : Leads context text (first + second) last := by
  induction leads with
  | here => rwa [Nat.zero_add]
  | @step _ _ _ _ count member given _ ih =>
      rw [Nat.add_right_comm]
      exact .step member given (ih onward)

namespace EndsWithin

theorem isRegular (ends : EndsWithin context depth text) : IsRegular text :=
  ends.regular 0 text (.here text)

theorem zero_iff : EndsWithin context 0 text ↔
    IsRegular text ∧ ∀ symbol ∈ symbolsOf text, ValueHas context (fun _ => False) symbol := by
  rw [forall_valueHas_iff]
  constructor
  · intro ends
    refine ⟨ends.isRegular, fun name value member given => ?_⟩
    have bound := ends.bounded 1 value (.step member given (.here value))
    omega
  · rintro ⟨regular, unknown⟩
    constructor
    · intro count last leads
      cases leads with
      | here => exact Nat.le_refl 0
      | step member given later => exact (unknown _ _ member given).elim
    · intro count last leads
      cases leads with
      | here => exact regular
      | step member given later => exact (unknown _ _ member given).elim

theorem succ_iff : EndsWithin context (depth + 1) text ↔
    IsRegular text ∧ ∀ symbol ∈ symbolsOf text, ValueHas context (EndsWithin context depth) symbol := by
  rw [forall_valueHas_iff]
  constructor
  · intro ends
    refine ⟨ends.isRegular, fun name value member given => ?_⟩
    constructor
    · intro count last leads
      have bound := ends.bounded (count + 1) last (.step member given leads)
      omega
    · exact fun count last leads => ends.regular (count + 1) last (.step member given leads)
  · rintro ⟨regular, values⟩
    constructor
    · intro count last leads
      cases leads with
      | here => exact Nat.zero_le _
      | step member given later =>
          exact Nat.succ_le_succ ((values _ _ member given).bounded _ last later)
    · intro count last leads
      cases leads with
      | here => exact regular
      | step member given later => exact (values _ _ member given).regular _ last later

instance decidable (context : ContextMap) : (depth : Nat) → DecidablePred (EndsWithin context depth)
  | 0, text =>
      have := List.decidableBAll (ValueHas context fun _ => False) (symbolsOf text)
      decidable_of_iff _ zero_iff.symm
  | depth + 1, text =>
      have := decidable context depth
      have := List.decidableBAll (ValueHas context (EndsWithin context depth)) (symbolsOf text)
      decidable_of_iff _ succ_iff.symm

/-- No chain of references comes back to a text it has been at. -/
theorem no_circle (ends : EndsWithin context depth text) {middle : Text} {first count : Nat}
    (leads : Leads context text first middle) : ¬ Leads context middle (count + 1) middle := by
  intro circle
  have around (times : Nat) : Leads context middle (times * (count + 1)) middle := by
    induction times with
    | zero => rw [Nat.zero_mul]; exact .here middle
    | succ times ih => rw [Nat.succ_mul]; exact ih.trans circle
  have bound := ends.bounded _ _ (leads.trans (around (depth + 1)))
  have many : depth + 1 ≤ (depth + 1) * (count + 1) := Nat.le_mul_of_pos_right _ (Nat.succ_pos count)
  omega

theorem values (ends : EndsWithin context (depth + 1) text) (member : .slot name ∈ symbolsOf text)
    (given : value? context name = some value) : EndsWithin context depth value :=
  forall_valueHas_iff.mp (succ_iff.mp ends).2 name value member given

theorem hasRegularValues (ends : EndsWithin context (depth + 1) text) :
    HasRegularValues context text :=
  fun _ _ member given => (ends.values member given).isRegular

/-- After one pass all chains are shorter by one reference. -/
theorem pass (ends : EndsWithin context (depth + 1) text) :
    EndsWithin context depth (replace context (Piece.cut recognise text)) := by
  have sameSymbols := symbolsOf_replace ends.isRegular ends.hasRegularValues
  -- a known token that stands there after the pass has come with a value
  have inValue (name value : Text)
      (isToken : .slot name ∈ symbolsOf (replace context (Piece.cut recognise text)))
      (given : value? context name = some value) :
      ∃ outer, EndsWithin context depth outer ∧ .slot name ∈ symbolsOf outer := by
    rw [sameSymbols] at isToken
    obtain ⟨symbol, member, inNext⟩ := List.mem_flatMap.mp isToken
    cases symbol with
    | char c => cases List.mem_singleton.mp inNext
    | slot other =>
        cases known : value? context other with
        | some outer =>
            rw [next_of_known known] at inNext
            exact ⟨outer, ends.values member known, inNext⟩
        | none =>
            rw [next_of_unknown known] at inNext
            cases List.mem_singleton.mp inNext
            rw [known] at given
            cases given
  constructor
  · intro count last leads
    cases leads with
    | here => exact Nat.zero_le _
    | step member given later =>
        obtain ⟨outer, endsOuter, isToken⟩ := inValue _ _ member given
        exact endsOuter.bounded _ last (.step isToken given later)
  · intro count last leads
    cases leads with
    | here => exact isRegular_replace ends.isRegular ends.hasRegularValues
    | step member given later =>
        obtain ⟨outer, endsOuter, isToken⟩ := inValue _ _ member given
        exact endsOuter.regular _ last (.step isToken given later)

end EndsWithin

/-! ### Runs of passes -/

theorem resolve_of_unchanged (unchanged : isChanged context (Piece.cut recognise text) = false)
    (depth : Nat) : resolve context depth text = text := by
  cases depth with
  | zero => rfl
  | succ depth => simp only [resolve, unchanged, Bool.false_eq_true, if_false]

/-- A run of passes can be divided, wherever it stops. -/
theorem resolve_add (first second : Nat) (text : Text) :
    resolve context (first + second) text = resolve context second (resolve context first text) := by
  induction first generalizing text with
  | zero => rw [Nat.zero_add, resolve]
  | succ first ih =>
      cases changed : isChanged context (Piece.cut recognise text) with
      | false =>
          rw [resolve_of_unchanged changed, resolve_of_unchanged changed,
            resolve_of_unchanged changed]
      | true =>
          rw [Nat.succ_add]
          simp only [resolve, changed, if_true]
          exact ih _

/-- A regular text without known tokens is settled. -/
theorem expands_of_unknown (regular : IsRegular text)
    (unknown : ∀ name, .slot name ∈ symbolsOf text → value? context name = none) :
    Expands context (symbolsOf text) text := by
  have expands := Expands.of_unknown unknown
  rwa [← (isRegular_iff.mp regular).1] at expands

/-- When all references end within the depth, a run arrives at the expansion, in which no token has a
value. -/
theorem expands_resolve (ends : EndsWithin context depth text) :
    Expands context (symbolsOf text) (resolve context depth text) ∧
      ∀ name, .slot name ∈ symbolsOf (resolve context depth text) → value? context name = none := by
  induction depth generalizing text with
  | zero =>
      obtain ⟨regular, values⟩ := EndsWithin.zero_iff.mp ends
      have unknown (name : Text) (member : .slot name ∈ symbolsOf text) :
          value? context name = none :=
        Option.eq_none_iff_forall_ne_some.mpr fun value given =>
          forall_valueHas_iff.mp values name value member given
      exact ⟨expands_of_unknown regular unknown, unknown⟩
  | succ depth ih =>
      cases changed : isChanged context (Piece.cut recognise text) with
      | false =>
          have unknown (name : Text) := @unknown_of_unchanged context name text changed
          rw [resolve_of_unchanged changed]
          exact ⟨expands_of_unknown ends.isRegular unknown, unknown⟩
      | true =>
          obtain ⟨expands, settled⟩ := ih ends.pass
          rw [symbolsOf_replace ends.isRegular ends.hasRegularValues] at expands
          simp only [resolve, changed, if_true]
          exact ⟨expands.of_next, settled⟩

/-- For every context: when all chains of references from a text end within the depth, a run of passes
gives its expansion and nothing else, and no token is left that has a value; and a run of passes,
however the references go, is the same as two runs that share its depth. -/
theorem resolve_is_expansion (context : ContextMap) :
    (∀ depth text, EndsWithin context depth text →
      (∀ expanded, Expands context (symbolsOf text) expanded ↔ resolve context depth text = expanded) ∧
      ∀ name, .slot name ∈ symbolsOf (resolve context depth text) → value? context name = none) ∧
    ∀ first second text,
      resolve context second (resolve context first text) = resolve context (first + second) text := by
  refine ⟨fun depth text ends => ?_, fun first second text => (resolve_add first second text).symm⟩
  obtain ⟨expands, settled⟩ := expands_resolve ends
  refine ⟨fun expanded => ⟨expands.unique, ?_⟩, settled⟩
  rintro rfl
  exact expands

/-- Names of two conventions that refer to each other's values. -/
def familyContext : ContextMap := .ofObject [
  ("has_kids", .text "[[Kids]] ([[ kid_count ]])"), ("kids", .text "[[eldest]] en [[youngest]]"),
  ("KidCount", .text "2"), ("Eldest", .text "Emma")]

theorem resolve_is_expansion_family :
    let text : Text := "[[HasKids]], [[kids]]; [[home]]"
    let expanded : Text := "Emma en [[youngest]] (2), Emma en [[youngest]]; [[home]]"
    EndsWithin familyContext 3 text ∧ Expands familyContext (symbolsOf text) expanded ∧
      (∀ name, .slot name ∈ symbolsOf expanded → value? familyContext name = none) ∧
      resolve familyContext 1 (resolve familyContext 2 text) = expanded := by
  intro text expanded
  have ends : EndsWithin familyContext 3 text := by decide +kernel
  have resolved : resolve familyContext 3 text = expanded := by decide +kernel
  obtain ⟨expansion, divided⟩ := resolve_is_expansion familyContext
  obtain ⟨isExpansion, settled⟩ := expansion 3 text ends
  rw [resolved] at settled
  exact ⟨ends, (isExpansion expanded).mpr resolved, settled, (divided 2 1 text).trans resolved⟩

end Covenant.Nested
