import Covenant.Template.Block

/-!
# Parts of a text

For one kind of block markup a text is a row of parts: the tags, and the characters outside of
them.  A scan depends on the parts only, and the places of the tags follow from their sources.
`BlockMarkup.Reads` says that parts are found again wherever they are written; it holds of parts
put together when it holds of each of them.
-/

namespace Covenant

/-- A tag, or a character outside of tags. -/
inductive Part where
  | plain (c : Char)
  | tagged (tag : Tag)

def Tag.unplaced (tag : Tag) : Tag := { tag with start := 0 }

namespace Part

def source : Part → Text
  | plain c => [c]
  | tagged tag => tag.source

def written (parts : List Part) : Text := parts.flatMap source

@[simp]
theorem written_nil : written [] = [] := rfl

@[simp]
theorem written_cons (part : Part) (parts : List Part) :
    written (part :: parts) = part.source ++ written parts := rfl

@[simp]
theorem written_append (first second : List Part) :
    written (first ++ second) = written first ++ written second := by
  simp [written]

/-- The characters of a text, none of them in a tag. -/
def plains (text : Text) : List Part := text.map plain

@[simp]
theorem written_plains (text : Text) : written (plains text) = text := by
  induction text with
  | nil => rfl
  | cons c text ih => simpa [plains, source] using ih

/-- The part without the place of its tag. -/
def unplaced : Part → Part
  | plain c => plain c
  | tagged tag => tagged tag.unplaced

/-- The tags among parts that start at the place `start`. -/
def placedTags : Nat → List Part → List Tag
  | _, [] => []
  | start, plain _ :: parts => placedTags (start + 1) parts
  | start, tagged tag :: parts =>
      { tag with start } :: placedTags (start + tag.source.length) parts

@[simp]
theorem placedTags_unplaced (start : Nat) (parts : List Part) :
    placedTags start (parts.map unplaced) = placedTags start parts := by
  induction parts generalizing start with
  | nil => rfl
  | cons part parts ih =>
      cases part with
      | plain c => simp [placedTags, unplaced, ih]
      | tagged tag => simp [placedTags, unplaced, Tag.unplaced, ih]

end Part

def tagsIn (parts : List Part) : List Tag :=
  parts.filterMap fun
    | .plain _ => none
    | .tagged tag => some tag

@[simp]
theorem tagsIn_nil : tagsIn [] = [] := rfl

@[simp]
theorem tagsIn_plain_cons (c : Char) (parts : List Part) :
    tagsIn (.plain c :: parts) = tagsIn parts := rfl

@[simp]
theorem tagsIn_tagged_cons (tag : Tag) (parts : List Part) :
    tagsIn (.tagged tag :: parts) = tag :: tagsIn parts := rfl

@[simp]
theorem tagsIn_append (first second : List Part) :
    tagsIn (first ++ second) = tagsIn first ++ tagsIn second := by
  simp [tagsIn]

theorem mem_tagsIn {tag : Tag} {parts : List Part} :
    tag ∈ tagsIn parts ↔ Part.tagged tag ∈ parts := by
  induction parts with
  | nil => simp
  | cons part parts ih => cases part <;> simp [ih]

/-- A recogniser that looks only at the text from a place on. -/
def IgnoresBefore {α : Type} (recognise : Recogniser α) : Prop :=
  ∀ before other text, recognise before text = recognise other text

theorem Piece.cutAfter_eq_cut_drop {α : Type} {recognise : Recogniser α}
    (ignores : IgnoresBefore recognise) (before : Option Char) (skip : Nat) (text : Text) :
    cutAfter recognise before skip text = cut recognise (text.drop skip) := by
  induction text generalizing before skip with
  | nil => simp [cut, cutAfter]
  | cons c text ih =>
      cases skip with
      | zero =>
          rw [List.drop_zero, cut, cutAfter, cutAfter, ignores before none]
      | succ skip => rw [cutAfter, ih, List.drop_succ_cons]

/-- What is recognised at the start of a text is cut off from it. -/
theorem Piece.cut_of_recognised {α : Type} {recognise : Recogniser α}
    (ignores : IgnoresBefore recognise) {found : α} {source : Text} (rest : Text)
    (filled : source ≠ [])
    (recognised : recognise none (source ++ rest) = some (found, source.length)) :
    cut recognise (source ++ rest) = token found source :: cut recognise rest := by
  obtain ⟨c, source, rfl⟩ := List.exists_cons_of_ne_nil filled
  simp only [List.cons_append, List.length_cons] at recognised
  simp only [List.cons_append, cut, cutAfter, recognised]
  rw [cutAfter_eq_cut_drop ignores]
  simp [cut]

theorem Piece.cut_of_unrecognised {α : Type} {recognise : Recogniser α}
    (ignores : IgnoresBefore recognise) {c : Char} {rest : Text}
    (unrecognised : recognise none (c :: rest) = none) :
    cut recognise (c :: rest) = plain c :: cut recognise rest := by
  simp only [cut, cutAfter, unrecognised]
  rw [cutAfter_eq_cut_drop ignores, List.drop_zero, cut]

/-- A text is cut before another when no token goes from one into the other. -/
theorem Piece.cutAfter_append {α : Type} {recognise : Recogniser α}
    (ignores : IgnoresBefore recognise) {second : Text}
    (stops : ∀ text, text ≠ [] → recognise none (text ++ second) = recognise none text)
    (within : ∀ text found length, recognise none text = some (found, length) → length ≤ text.length)
    (before : Option Char) (skip : Nat) {first : Text} (inside : skip ≤ first.length) :
    cutAfter recognise before skip (first ++ second) =
      cutAfter recognise before skip first ++ cut recognise second := by
  induction first generalizing before skip with
  | nil =>
      obtain rfl : skip = 0 := by simpa using inside
      rw [List.nil_append, cutAfter_eq_cut_drop ignores, List.drop_zero]
      rfl
  | cons c first ih =>
      cases skip with
      | succ skip =>
          exact ih (some c) skip (by simpa using inside)
      | zero =>
          have same := stops (c :: first) (List.cons_ne_nil c first)
          rw [ignores none before, ignores none before, List.cons_append] at same
          rw [List.cons_append, cutAfter, cutAfter, same]
          cases recognised : recognise before (c :: first) with
          | none => simp [ih (some c) 0 (Nat.zero_le _)]
          | some token =>
              obtain ⟨found, length⟩ := token
              rw [ignores before none] at recognised
              have fits := within (c :: first) found length recognised
              cases length with
              | zero => simp [ih (some c) 0 (Nat.zero_le _)]
              | succ length =>
                  have fitsRest : length ≤ first.length := by simpa using fits
                  simp [ih (some c) length fitsRest, List.take_append_of_le_length fitsRest]

namespace BlockMarkup

def partOf (markup : BlockMarkup) : Piece TagForm → Part
  | .plain c => .plain c
  | .token form source => .tagged (markup.tagOf ⟨form, 0, source⟩)

def parts (markup : BlockMarkup) (text : Text) : List Part :=
  (Piece.cut markup.recognise text).map markup.partOf

theorem tags_eq_placedTags (markup : BlockMarkup) (text : Text) :
    markup.tags text = Part.placedTags 0 (markup.parts text) := by
  have placed (start : Nat) (pieces : List (Piece TagForm)) :
      (Found.ofPieces start pieces).map markup.tagOf =
        Part.placedTags start (pieces.map markup.partOf) := by
    induction pieces generalizing start with
    | nil => rfl
    | cons piece pieces ih =>
        cases piece with
        | plain c => simp [Found.ofPieces, partOf, Part.placedTags, ih]
        | token form source =>
            simp [Found.ofPieces, partOf, Part.placedTags, tagOf, ih]
  exact placed 0 _

/-- Wherever the parts are written, they are found again. -/
def Reads (markup : BlockMarkup) (parts : List Part) : Prop :=
  ∀ rest, markup.parts (Part.written parts ++ rest) =
    parts.map Part.unplaced ++ markup.parts rest

namespace Reads

variable {markup : BlockMarkup}

theorem nil : markup.Reads [] := fun _ => rfl

theorem append {first second : List Part} (readsFirst : markup.Reads first)
    (readsSecond : markup.Reads second) : markup.Reads (first ++ second) := by
  intro rest
  rw [Part.written_append, List.append_assoc, readsFirst, readsSecond]
  simp

theorem plain (ignores : IgnoresBefore markup.recognise) {c : Char}
    (unrecognised : ∀ rest, markup.recognise none (c :: rest) = none) :
    markup.Reads [.plain c] := by
  intro rest
  simp [parts, Part.source, Piece.cut_of_unrecognised ignores (unrecognised rest), partOf,
    Part.unplaced]

theorem tagged (ignores : IgnoresBefore markup.recognise) {form : TagForm} {tag : Tag}
    (filled : tag.source ≠ [])
    (recognised : ∀ rest,
      markup.recognise none (tag.source ++ rest) = some (form, tag.source.length))
    (isTag : tag.unplaced = markup.tagOf ⟨form, 0, tag.source⟩) :
    markup.Reads [.tagged tag] := by
  intro rest
  simp [parts, Part.source, Piece.cut_of_recognised ignores rest filled (recognised rest), partOf,
    Part.unplaced, isTag]

theorem of_forall {parts : List Part} (each : ∀ part ∈ parts, markup.Reads [part]) :
    markup.Reads parts := by
  induction parts with
  | nil => exact nil
  | cons part parts ih =>
      exact append (each part (by simp)) (ih fun other member => each other (by simp [member]))

theorem parts_written {parts : List Part} (reads : markup.Reads parts) :
    markup.parts (Part.written parts) = parts.map Part.unplaced := by
  have atEnd := reads []
  simpa [BlockMarkup.parts, Piece.cut, Piece.cutAfter] using atEnd

theorem scan_written {parts : List Part} (reads : markup.Reads parts) :
    markup.scan (Part.written parts) = pairTags [] (Part.placedTags 0 parts) := by
  rw [scan, tags_eq_placedTags, reads.parts_written, Part.placedTags_unplaced]

end Reads

end BlockMarkup

end Covenant
