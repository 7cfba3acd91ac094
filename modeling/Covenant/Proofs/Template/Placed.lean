import Covenant.Proofs.Template.Pass

/-!
# Parts with their places

The parts of a text make up the text, and every tag among them was recognised somewhere in it.  When
each tag is told its place, no two tags are the same, and a run keeps apart what is written alike.
-/

namespace Covenant

namespace Piece

variable {α : Type} {recognise : Recogniser α}

theorem flatMap_source_cutAfter (before : Option Char) (skip : Nat) (text : Text) :
    (cutAfter recognise before skip text).flatMap source = text.drop skip := by
  fun_induction cutAfter recognise before skip text with
  | case1 before skip => simp
  | case2 before skip c cs ih => simpa using ih
  | case3 before c cs found length recognised ih => simp [source, ih]
  | case4 before c cs unrecognised ih => simp [source, ih]

theorem flatMap_source_cut (text : Text) : (cut recognise text).flatMap source = text :=
  flatMap_source_cutAfter none 0 text

theorem exists_recognised_of_mem {found : α} {source : Text} (before : Option Char) (skip : Nat)
    (text : Text) (member : token found source ∈ cutAfter recognise before skip text) :
    ∃ place rest length, recognise place rest = some (found, length) ∧ source = rest.take length := by
  fun_induction cutAfter recognise before skip text with
  | case1 before skip => simp at member
  | case2 before skip c cs ih => exact ih member
  | case3 before c cs other length recognised ih =>
      rcases List.mem_cons.mp member with same | later
      · cases same
        exact ⟨before, c :: cs, length + 1, recognised, rfl⟩
      · exact ih later
  | case4 before c cs unrecognised ih =>
      rcases List.mem_cons.mp member with same | later
      · cases same
      · exact ih later

end Piece

theorem BlockMarkup.written_parts (markup : BlockMarkup) (text : Text) :
    Part.written (markup.parts text) = text := by
  have sameSource (piece : Piece TagForm) : (markup.partOf piece).source = piece.source := by
    cases piece with
    | plain c => rfl
    | token form source => rfl
  have sources := @Piece.flatMap_source_cut _ markup.recognise text
  simpa [Part.written, parts, List.flatMap_map, sameSource] using sources

theorem BlockMarkup.exists_recognised_of_mem_parts {markup : BlockMarkup} {text : Text} {tag : Tag}
    (member : .tagged tag ∈ markup.parts text) :
    ∃ form source place rest length, tag = markup.tagOf ⟨form, 0, source⟩ ∧
      markup.recognise place rest = some (form, length) ∧ source = rest.take length := by
  obtain ⟨piece, inCut, same⟩ := List.mem_map.mp member
  cases piece with
  | plain c => cases same
  | token form source =>
      cases same
      obtain ⟨place, rest, length, recognised, isSource⟩ :=
        Piece.exists_recognised_of_mem none 0 text inCut
      exact ⟨form, source, place, rest, length, rfl, recognised, isSource⟩

namespace Part

/-- The parts with the places of the tags, from the place `start` on. -/
def placed : Nat → List Part → List Part
  | _, [] => []
  | start, plain c :: parts => plain c :: placed (start + 1) parts
  | start, tagged tag :: parts =>
      tagged { tag with start } :: placed (start + tag.source.length) parts

variable (start : Nat) (parts : List Part)

@[simp]
theorem tagsIn_placed : tagsIn (placed start parts) = placedTags start parts := by
  fun_induction placed start parts with
  | case1 start => rfl
  | case2 start c parts ih => simpa [placedTags] using ih
  | case3 start tag parts ih => simpa [placedTags] using ih

@[simp]
theorem placedTags_placed : placedTags start (placed start parts) = placedTags start parts := by
  fun_induction placed start parts with
  | case1 start => rfl
  | case2 start c parts ih => simpa [placedTags] using ih
  | case3 start tag parts ih => simpa [placedTags] using ih

@[simp]
theorem written_placed : written (placed start parts) = written parts := by
  fun_induction placed start parts with
  | case1 start => rfl
  | case2 start c parts ih => simp [ih]
  | case3 start tag parts ih => simp [ih, source]

end Part

theorem inOrder_placed (start : Nat) {parts : List Part}
    (filled : ∀ tag ∈ tagsIn parts, tag.source ≠ []) :
    InOrder (Part.placed start parts) ∧
      ∀ tag ∈ tagsIn (Part.placed start parts), start ≤ tag.start := by
  induction parts generalizing start with
  | nil => exact ⟨List.Pairwise.nil, by simp [Part.placedTags]⟩
  | cons part parts ih =>
      cases part with
      | plain c =>
          obtain ⟨inOrder, later⟩ := ih (start + 1) (by simpa using filled)
          refine ⟨inOrder, ?_⟩
          intro tag member
          have behind := later tag member
          omega
      | tagged tag =>
          have room : 0 < tag.source.length := List.length_pos_of_ne_nil (filled tag (by simp))
          obtain ⟨inOrder, later⟩ := ih (start + tag.source.length)
            fun other member => filled other (by simp [member])
          constructor
          · refine List.pairwise_cons.mpr ⟨?_, inOrder⟩
            intro other member
            have behind := later other member
            simp only
            omega
          · intro other member
            rcases List.mem_cons.mp member with rfl | member
            · exact Nat.le_refl start
            · have behind := later other member
              omega

end Covenant
