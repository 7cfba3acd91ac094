import Covenant.Number.Reading

/-!
# Handlers of tags

A tag such as `[@click=open('a', 1)]` names a handler, and the parentheses after
the name hold its arguments.  What is no name with arguments is an argument itself.
The arguments are literals: numbers, texts, truth values, and lists, sets, tuples
and dictionaries of literals.
-/

namespace Covenant.Handler

/-- What has to be known of a literal where it is part of another one. -/
inductive Kind where
  | number
  | signed
  | imaginary
  | atom
  | tuple (hashable : Bool)
  | container

/-- Whether a literal can be a member of a set. -/
def Kind.isHashable : Kind → Bool
  | tuple hashable => hashable
  | container => false
  | _ => true

def isNameCharacter (c : Char) : Bool :=
  c.isAlphanum || c = '_' || (0x80 ≤ c.toNat && !isBlank c)

/-- The text after white space and comments; line breaks count only inside brackets. -/
def skipFrom (nested inComment : Bool) : Text → Text
  | [] => []
  | c :: rest =>
      if c = '#' || (inComment && c ≠ '\n') then skipFrom nested true rest
      else if c = ' ' || c = '\t' || c = '\x0c' || (nested && (c = '\n' || c = '\r')) then
        skipFrom nested false rest
      else c :: rest

def skip (nested : Bool) (text : Text) : Text := skipFrom nested false text

def afterQuote? (mark : Char) : Text → Option Text
  | [] => none
  | '\\' :: _ :: rest => afterQuote? mark rest
  | c :: rest => if c = mark then some rest else if c = '\n' then none else afterQuote? mark rest

/-- The letters that may stand in front of a quoted text. -/
def isQuotePrefix (word : Text) : Bool :=
  (["", "r", "b", "u", "rb", "br"] : List Text).contains (word.map Char.toLower)

def afterQuoted? (text : Text) : Option Text :=
  let (word, rest) := text.span Char.isAlpha
  match rest with
  | mark :: rest =>
      if isQuotePrefix word && (mark = '\'' || mark = '"') then afterQuote? mark rest else none
  | [] => none

def afterTexts? (nested : Bool) : Nat → Text → Option Text
  | 0, _ => none
  | fuel + 1, text => do
      let rest ← afterQuoted? text
      match afterTexts? nested fuel (skip nested rest) with
      | some rest => some rest
      | none => some rest

/-- The characters of a numeral at the beginning, with the sign of an exponent. -/
def numeralAt (text : Text) : Text :=
  let (head, rest) := text.span fun c => c.isAlphanum || c = '_' || c = '.'
  match head.getLast?, rest with
  | some mark, sign :: after =>
      let digits := after.takeWhile fun c => isAsciiDigit c || c = '_'
      if (mark = 'e' || mark = 'E') && (sign = '+' || sign = '-') && !digits.isEmpty then
        head ++ sign :: digits
      else head
  | _, _ => head

/-- Whether the characters are a number: in decimal without idle zeros in front, or in another
base. -/
def isNumeral (numeral : Text) : Bool :=
  let digitsOf (isDigit : Char → Bool) (digits : Text) : Bool :=
    !digits.isEmpty && digits.all fun c => isDigit c || c = '_'
  match numeral.map Char.toLower with
  | '0' :: 'x' :: digits => digitsOf (fun c => isAsciiDigit c || ('a' ≤ c && c ≤ 'f')) digits
  | '0' :: 'o' :: digits => digitsOf (fun c => '0' ≤ c && c ≤ '7') digits
  | '0' :: 'b' :: digits => digitsOf (fun c => c = '0' || c = '1') digits
  | numeral =>
      numeral.head?.any (fun c => isAsciiDigit c || c = '.') &&
        (Binary64.ofText? numeral).isSome &&
        !(numeral.head? = some '0' && digitsOf isAsciiDigit numeral &&
          numeral.any fun c => c ≠ '0' && c ≠ '_')

/-- A number, whether it is imaginary, and what follows it. -/
def number? (text : Text) : Option (Kind × Text) :=
  let numeral := numeralAt text
  let rest := text.drop numeral.length
  match numeral.reverse with
  | 'j' :: digits | 'J' :: digits =>
      let digits := digits.reverse
      if isNumeral digits || (!digits.isEmpty && digits.all isAsciiDigit) then
        some (.imaginary, rest)
      else none
  | _ => if isNumeral numeral then some (.number, rest) else none

def afterSign? (nested : Bool) (text : Text) : Option (Kind × Text) :=
  (number? (skip nested text)).map fun (_, rest) => (.signed, rest)

def withImaginary (nested : Bool) (kind : Kind) (text : Text) : Option (Kind × Text) :=
  match skip nested text with
  | sign :: rest =>
      if sign = '+' || sign = '-' then
        match number? (skip nested rest) with
        | some (.imaginary, rest) => some (.atom, rest)
        | _ => none
      else some (kind, text)
  | [] => some (kind, text)

def simple? (nested : Bool) (text : Text) : Option (Kind × Text) :=
  match text with
  | '.' :: '.' :: '.' :: rest => some (.atom, rest)
  | '+' :: rest | '-' :: rest => do
      let (kind, rest) ← afterSign? nested rest
      withImaginary nested kind rest
  | _ =>
      let word := text.takeWhile isNameCharacter
      if (["True", "False", "None"] : List Text).contains word then
        some (.atom, text.drop word.length)
      else match afterTexts? nested text.length text with
        | some rest => some (.atom, rest)
        | none => do
            let (kind, rest) ← number? text
            withImaginary nested kind rest

structure Items where
  count : Nat := 0
  hashable : Bool := true
  hasComma : Bool := false
  paired : Bool := false

mutual

/-- A literal, and what follows it; `fuel` bounds the number of steps. -/
def literal? (nested : Bool) : Nat → Text → Option (Kind × Text)
  | 0, _ => none
  | fuel + 1, text =>
      match skip nested text with
      | '(' :: rest => do
          let (items, rest) ← items? fuel ')' {} rest
          if items.paired then none
          else if items.count = 1 && !items.hasComma then some (.atom, rest)
          else some (.tuple items.hashable, rest)
      | '[' :: rest => do
          let (items, rest) ← items? fuel ']' {} rest
          if items.paired then none else some (.container, rest)
      | '\x7b' :: rest => do
          let (items, rest) ← items? fuel '\x7d' {} rest
          if items.hashable then some (.container, rest) else none
      | text => simple? nested text

/-- The items up to a closing bracket, and what follows it. -/
def items? (fuel : Nat) (closing : Char) (items : Items) (text : Text) : Option (Items × Text) :=
  match fuel with
  | 0 => none
  | fuel + 1 =>
      match skip true text with
      | [] => none
      | c :: rest =>
          if c = closing then some (items, rest)
          else do
            let (kind, rest) ← literal? true fuel (c :: rest)
            let (paired, rest) ← match skip true rest with
              | ':' :: rest => (literal? true fuel rest).map fun (_, rest) => (true, rest)
              | rest => some (false, rest)
            if 0 < items.count && items.paired ≠ paired then none
            let items : Items := {
              items with count := items.count + 1, hashable := items.hashable && kind.isHashable,
                         paired }
            match skip true rest with
            | ',' :: rest => items? fuel closing { items with hasComma := true } rest
            | d :: rest => if d = closing then some (items, rest) else none
            | [] => none

end

/-- Whether the text is a literal, or several with commas between them. -/
def isLiterals : Nat → Text → Bool
  | 0, _ => false
  | fuel + 1, text =>
      match literal? false (2 * text.length + 2) text with
      | none => false
      | some (_, rest) =>
          match skip false rest with
          | [] => true
          | ',' :: rest => (skip false rest).isEmpty || isLiterals fuel rest
          | _ => false

/-- Whether a tag's text after the equals sign is a handler with arguments, or arguments. -/
def isWellFormed (parameters : Text) : Bool :=
  let text := Text.trim parameters
  let rest := text.dropWhile fun c => isNameCharacter c || c = '.'
  if rest.isEmpty then true
  else
    let isCall := rest.head? = some '(' && rest.getLast? = some ')' && !rest.contains '\n'
    let arguments := if isCall then rest else text
    isLiterals (arguments.length + 1) arguments

end Covenant.Handler
