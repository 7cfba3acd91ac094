import Covenant.Fault
import Covenant.Proofs.Text.Case
import Covenant.Text.Group

/-!
# Texts and values without delimiters

Delimiters are the characters that enclose placeholders: brackets, braces and angle brackets.  They
are no letters, digits or white space, so nothing that is written from texts without delimiters by
putting together, taking apart, trimming or a change of letter case holds any.
-/

namespace Covenant

/-- The characters that enclose placeholders of any style. -/
def isDelimiter (c : Char) : Bool := isBracket c || Placeholder.isBrace c || c = '<' || c = '>'

theorem isDelimiter_iff {c : Char} : isDelimiter c = true ↔ c ∈ ("[]\x7b\x7d<>" : Text) := by
  simp [isDelimiter, isBracket, Placeholder.isBrace, or_assoc]

theorem isDelimiter_of_isBracket {c : Char} (bracket : isBracket c = true) : isDelimiter c = true := by
  simp [isDelimiter, bracket]

theorem isBracket_of_not_isDelimiter {c : Char} (plain : isDelimiter c = false) :
    isBracket c = false := by
  by_contra isMark
  rw [isDelimiter_of_isBracket (by simpa using isMark)] at plain
  cases plain

theorem areMarks_isDelimiter : AreMarks isDelimiter := by
  intro c isMark
  have all : ("[]\x7b\x7d<>" : Text).all
      (fun c => c.toNat < 0x80 && !c.isAlpha && c != '\x00') = true := by
    decide
  simpa [and_assoc] using List.all_eq_true.mp all c (isDelimiter_iff.mp isMark)

theorem isDelimiter_of_isDigit {c : Char} (digit : c.isDigit = true) : isDelimiter c = false := by
  have all : ("[]\x7b\x7d<>" : Text).all (fun c => !c.isDigit) = true := by decide
  by_contra isMark
  have noDigit := List.all_eq_true.mp all c (isDelimiter_iff.mp (by simpa using isMark))
  simp [digit] at noDigit

/-- A text without delimiters. -/
abbrev Clean (text : Text) : Prop := Lacks isDelimiter text

/-- Between pieces that are put together stand separators only. -/
theorem Text.forall_mem_intersperse {holds : Text → Prop} {separator : Text} {pieces : List Text}
    (between : holds separator) (each : ∀ piece ∈ pieces, holds piece) :
    ∀ part ∈ pieces.intersperse separator, holds part := by
  induction pieces with
  | nil => nofun
  | cons piece pieces ih =>
      obtain ⟨own, later⟩ := List.forall_mem_cons.mp each
      cases pieces with
      | nil => simpa using own
      | cons next pieces =>
          rw [List.intersperse_cons_cons]
          exact List.forall_mem_cons.mpr ⟨own, List.forall_mem_cons.mpr ⟨between, ih later⟩⟩

namespace Clean

variable {text first second : Text}

theorem bracketFree (clean : Clean text) : BracketFree text :=
  fun c member => isBracket_of_not_isDelimiter (clean c member)

theorem ofNat (n : Nat) : Clean (Text.ofNat n) :=
  fun _ member => isDelimiter_of_isDigit (Nat.isDigit_of_mem_toDigits (by decide) (by decide) member)

theorem ofInt (n : Int) : Clean (Text.ofInt n) := by
  cases n with
  | ofNat n => exact ofNat n
  | negSucc n => exact Lacks.cons rfl (ofNat (n + 1))

theorem ofNatPadded (width n : Nat) : Clean (Text.ofNatPadded width n) := by
  refine Lacks.append (fun c member => ?_) (ofNat n)
  rw [List.eq_of_mem_replicate member]
  rfl

theorem joinWith {separator : Text} {pieces : List Text} (separatorClean : Clean separator)
    (each : ∀ piece ∈ pieces, Clean piece) : Clean (Text.joinWith separator pieces) :=
  Lacks.flatten (Text.forall_mem_intersperse separatorClean each)

theorem replaceChar {old : Char} {new : Text} (newClean : Clean new) (clean : Clean text) :
    Clean (Text.replaceChar old new text) := by
  intro c member
  obtain ⟨d, inText, inPiece⟩ := List.mem_flatMap.mp member
  split at inPiece
  · exact newClean c inPiece
  · rw [List.mem_singleton.mp inPiece]
    exact clean d inText

theorem filter (keeps : Char → Bool) (clean : Clean text) : Clean (text.filter keeps) :=
  clean.of_subset fun _ member => (List.mem_filter.mp member).1

theorem groupFrom {separator : Char} (separatorClean : isDelimiter separator = false) (size room : Nat)
    (clean : Clean text) : Clean (Text.groupFrom separator size room text) := by
  induction text generalizing room with
  | nil => exact Lacks.nil
  | cons c text ih =>
      have own := clean c List.mem_cons_self
      have later (room : Nat) := ih room fun other member => clean other (List.mem_cons_of_mem c member)
      cases room with
      | zero => exact Lacks.cons separatorClean (Lacks.cons own (later _))
      | succ room => exact Lacks.cons own (later _)

theorem groupLeft {separator : Char} (separatorClean : isDelimiter separator = false) (size : Nat)
    (clean : Clean text) : Clean (Text.groupLeft separator size text) :=
  groupFrom separatorClean size size clean

theorem groupRight {separator : Char} (separatorClean : isDelimiter separator = false) (size : Nat)
    (clean : Clean text) : Clean (Text.groupRight separator size text) :=
  groupFrom separatorClean size _ clean

theorem words (clean : Clean text) : ∀ word ∈ Text.words text, Clean word := by
  induction text with
  | nil => nofun
  | cons c text ih =>
      have own := clean c List.mem_cons_self
      have later := ih fun other member => clean other (List.mem_cons_of_mem c member)
      unfold Text.words
      split
      · exact later
      · split
        · rename_i isWords
          rw [isWords] at later
          obtain ⟨firstClean, restClean⟩ := List.forall_mem_cons.mp later
          split
          · exact List.forall_mem_cons.mpr ⟨Lacks.cons own Lacks.nil, later⟩
          · exact List.forall_mem_cons.mpr ⟨Lacks.cons own firstClean, restClean⟩
        · exact List.forall_mem_cons.mpr ⟨Lacks.cons own Lacks.nil, later⟩

end Clean

/-- A value whose text holds no delimiters. -/
def Value.IsClean (value : Value) : Prop := Clean value.plain

namespace Value.IsClean

variable {value : Value}

theorem stored (clean : value.IsClean) : Clean value.stored := by
  cases value with
  | null => exact Lacks.nil
  | bool truth => cases truth <;> decide
  | _ => exact clean

theorem asText {content : Text} (clean : value.IsClean) (isText : value.asText = .ok content) :
    Clean content := by
  cases value with
  | text own =>
      obtain rfl := Except.ok.inj isText
      exact clean
  | _ => cases isText

theorem orElse {other : Value} (clean : value.IsClean) (otherClean : other.IsClean) :
    (value.orElse other).IsClean := by
  rw [Value.orElse]
  split
  · exact clean
  · exact otherClean

end Value.IsClean

end Covenant
