import Covenant.Proofs.Template.BlankLines

/-!
# Runs of line breaks one by one

Where every carriage return has its line feed, a text is made of runs of line breaks and of single
other characters between them.  Collapsing exchanges each run for itself, and none of them comes to
stand next to another.
-/

namespace Covenant.BlankLines

variable {text before after rest : Text} {breaks : List Text} {c : Char}

/-- Every carriage return is directly followed by a line feed. -/
def ReturnsPaired (text : Text) : Prop :=
  ∀ place, text[place]? = some '\r' → text[place + 1]? = some '\n'

instance : DecidablePred ReturnsPaired := fun text =>
  decidable_of_iff (∀ place < text.length, text[place]? = some '\r' → text[place + 1]? = some '\n')
    ⟨fun each place isReturn => each place (List.getElem?_eq_some_iff.mp isReturn).1 isReturn,
      fun each place _ => each place⟩

theorem ReturnsPaired.of_cons (paired : ReturnsPaired (c :: rest)) : ReturnsPaired rest :=
  fun place isReturn => paired (place + 1) isReturn

/-- A run of line breaks in a text with no part of a line break next to it. -/
structure IsWholeRun (text before : Text) (breaks : List Text) (after : Text) : Prop where
  parts : text = before ++ (breaks.flatten ++ after)
  areBreaks : ∀ one ∈ breaks, IsBreak one
  opens : ∀ c ∈ before.getLast?, isLineBreak c = false
  closes : ∀ c ∈ after.head?, isLineBreak c = false

/-- What becomes of a run: two line feeds if it has three line breaks or more. -/
def shortened (breaks : List Text) : List Text :=
  if 3 ≤ breaks.length then ["\n", "\n"] else breaks

theorem shortened_of_long (long : 3 ≤ breaks.length) : shortened breaks = ["\n", "\n"] := if_pos long

theorem shortened_of_short (short : breaks.length ≤ 2) : shortened breaks = breaks :=
  if_neg (by omega)

theorem shortened_shortened (breaks : List Text) : shortened (shortened breaks) = shortened breaks := by
  by_cases long : 3 ≤ breaks.length
  · rw [shortened_of_long long]
    rfl
  · have kept : shortened breaks = breaks := shortened_of_short (by omega)
    rw [kept, kept]

theorem areBreaks_shortened (areBreaks : ∀ one ∈ breaks, IsBreak one) :
    ∀ one ∈ shortened breaks, IsBreak one := by
  unfold shortened
  split
  · intro one member
    exact .inl (by simpa using member)
  · exact areBreaks

/-! ### A run by itself -/

theorem run_flatten (areBreaks : ∀ one ∈ breaks, IsBreak one) :
    run breaks.flatten = (breaks.length, breaks.flatten.length) := by
  induction breaks with
  | nil => rfl
  | cons one breaks ih =>
      obtain ⟨own, others⟩ := List.forall_mem_cons.mp areBreaks
      rw [List.flatten_cons, run_break_append own, ih others]
      simp [Nat.add_comm]

/-- There are as many line feeds as line breaks. -/
theorem count_flatten (areBreaks : ∀ one ∈ breaks, IsBreak one) :
    breaks.flatten.count '\n' = breaks.length := by
  induction breaks with
  | nil => rfl
  | cons one breaks ih =>
      obtain ⟨own, others⟩ := List.forall_mem_cons.mp areBreaks
      have single : one.count '\n' = 1 := by
        rcases own with rfl | rfl <;> rfl
      rw [List.flatten_cons, List.count_append, single, ih others, List.length_cons, Nat.add_comm]

theorem isLineBreak_of_mem_flatten (areBreaks : ∀ one ∈ breaks, IsBreak one)
    (member : c ∈ breaks.flatten) : isLineBreak c = true := by
  obtain ⟨one, isOne, inOne⟩ := List.mem_flatten.mp member
  rcases areBreaks one isOne with rfl | rfl
  · obtain rfl : c = '\n' := by simpa using inOne
    rfl
  · obtain rfl | rfl : c = '\r' ∨ c = '\n' := by simpa using inOne
    · rfl
    · rfl

theorem collapse_flatten (areBreaks : ∀ one ∈ breaks, IsBreak one) :
    collapse breaks.flatten = (shortened breaks).flatten := by
  by_cases long : 3 ≤ breaks.length
  · have length := run_breaks_le breaks.flatten
    rw [run_flatten areBreaks] at length
    have filled : breaks.flatten ≠ [] := List.ne_nil_of_length_pos (by omega)
    have recognised : recognise none (breaks.flatten ++ []) = some ((), breaks.flatten.length) := by
      rw [List.append_nil, recognise, run_flatten areBreaks]
      exact if_pos long
    have cut := Piece.cut_of_recognised (fun _ _ _ => rfl) [] filled recognised
    rw [List.append_nil] at cut
    rw [collapse, cut, shortened_of_long long]
    rfl
  · rw [shortened_of_short (by omega), collapse_eq_self_iff]
    rintro ⟨before, others, after, whole, longOthers, areOthers⟩
    have counted := count_flatten areBreaks
    rw [whole, List.count_append, List.count_append, count_flatten areOthers] at counted
    omega

/-! ### A run between other characters -/

theorem collapse_cons (noBreak : isLineBreak c = false) (rest : Text) :
    collapse (c :: rest) = c :: collapse rest :=
  collapse_append_cons noBreak [] rest

theorem collapse_concat (noBreak : isLineBreak c = false) (text : Text) :
    collapse (text ++ [c]) = collapse text ++ [c] :=
  collapse_append_cons noBreak text []

theorem collapse_append_of_opens (opens : ∀ c ∈ before.getLast?, isLineBreak c = false) (rest : Text) :
    collapse (before ++ rest) = collapse before ++ collapse rest := by
  rcases List.eq_nil_or_concat' before with rfl | ⟨front, c, rfl⟩
  · rfl
  · have noBreak : isLineBreak c = false := opens c (by simp)
    rw [List.append_assoc, List.singleton_append, collapse_append_cons noBreak, collapse_concat noBreak,
      List.append_assoc, List.singleton_append]

theorem collapse_append_of_closes (closes : ∀ c ∈ after.head?, isLineBreak c = false) (text : Text) :
    collapse (text ++ after) = collapse text ++ collapse after := by
  cases after with
  | nil =>
      rw [List.append_nil]
      exact (List.append_nil _).symm
  | cons c after =>
      have noBreak : isLineBreak c = false := closes c rfl
      rw [collapse_append_cons noBreak, collapse_cons noBreak]

theorem head?_collapse (closes : ∀ c ∈ after.head?, isLineBreak c = false) :
    (collapse after).head? = after.head? := by
  cases after with
  | nil => rfl
  | cons c after =>
      rw [collapse_cons (closes c rfl), List.head?_cons, List.head?_cons]

theorem getLast?_collapse (opens : ∀ c ∈ before.getLast?, isLineBreak c = false) :
    (collapse before).getLast? = before.getLast? := by
  rcases List.eq_nil_or_concat' before with rfl | ⟨front, c, rfl⟩
  · rfl
  · have noBreak : isLineBreak c = false := opens c (by simp)
    rw [collapse_concat noBreak, List.getLast?_concat, List.getLast?_concat]

/-- Collapsing takes the text apart at its runs: each of them is shortened where it stands. -/
theorem IsWholeRun.collapsed (whole : IsWholeRun text before breaks after) :
    IsWholeRun (collapse text) (collapse before) (shortened breaks) (collapse after) where
  parts := by
    rw [whole.parts, collapse_append_of_opens whole.opens, collapse_append_of_closes whole.closes,
      collapse_flatten whole.areBreaks]
  areBreaks := areBreaks_shortened whole.areBreaks
  opens := by
    rw [getLast?_collapse whole.opens]
    exact whole.opens
  closes := by
    rw [head?_collapse whole.closes]
    exact whole.closes

/-! ### Run by run -/

/-- Texts read from the front: a run of line breaks, another character, and so on up to a last run. -/
inductive InRuns : Text → Prop
  | last {breaks : List Text} (areBreaks : ∀ one ∈ breaks, IsBreak one) : InRuns breaks.flatten
  | further {breaks : List Text} {c : Char} {rest : Text} (areBreaks : ∀ one ∈ breaks, IsBreak one)
      (noBreak : isLineBreak c = false) (later : InRuns rest) : InRuns (breaks.flatten ++ c :: rest)

theorem InRuns.break_append {one : Text} (isBreak : IsBreak one) (inRuns : InRuns text) :
    InRuns (one ++ text) := by
  cases inRuns with
  | last areBreaks =>
      exact .last (List.forall_mem_cons.mpr ⟨isBreak, areBreaks⟩)
  | further areBreaks noBreak later =>
      rw [← List.append_assoc, ← List.flatten_cons]
      exact .further (List.forall_mem_cons.mpr ⟨isBreak, areBreaks⟩) noBreak later

theorem inRuns_of_paired (paired : ReturnsPaired text) : InRuns text := by
  induction text using Text.normalizeBreaks.induct with
  | case1 => exact @InRuns.last [] nofun
  | case2 rest ih => exact (ih paired.of_cons.of_cons).break_append (.inr rfl)
  | case3 rest alone ih =>
      -- a carriage return without its line feed
      have next : rest[0]? = some '\n' := paired 0 rfl
      cases rest with
      | nil => cases next
      | cons d rest =>
          obtain rfl : d = '\n' := by simpa using next
          exact absurd rfl (alone rest)
  | case4 c rest _ noReturn ih =>
      by_cases feed : c = '\n'
      · subst feed
        exact (ih paired.of_cons).break_append (.inl rfl)
      · have noBreak : isLineBreak c = false := by simpa [isLineBreak, feed] using noReturn
        exact @InRuns.further [] c rest nofun noBreak (ih paired.of_cons)

theorem collapse_run_append (areBreaks : ∀ one ∈ breaks, IsBreak one) (noBreak : isLineBreak c = false)
    (rest : Text) :
    collapse (breaks.flatten ++ c :: rest) = (shortened breaks).flatten ++ c :: collapse rest := by
  rw [collapse_append_cons noBreak, collapse_flatten areBreaks]

theorem InRuns.collapse_twice (inRuns : InRuns text) : collapse (collapse text) = collapse text := by
  induction inRuns with
  | last areBreaks =>
      rw [collapse_flatten areBreaks, collapse_flatten (areBreaks_shortened areBreaks), shortened_shortened]
  | further areBreaks noBreak _ ih =>
      rw [collapse_run_append areBreaks noBreak,
        collapse_run_append (areBreaks_shortened areBreaks) noBreak, shortened_shortened, ih]

theorem filter_flatten (areBreaks : ∀ one ∈ breaks, IsBreak one) :
    breaks.flatten.filter (fun c => !isLineBreak c) = [] := by
  apply List.filter_eq_nil_iff.mpr
  intro c member
  simp [isLineBreak_of_mem_flatten areBreaks member]

theorem InRuns.filter_collapse (inRuns : InRuns text) :
    (collapse text).filter (fun c => !isLineBreak c) = text.filter (fun c => !isLineBreak c) := by
  induction inRuns with
  | last areBreaks =>
      rw [collapse_flatten areBreaks, filter_flatten areBreaks,
        filter_flatten (areBreaks_shortened areBreaks)]
  | further areBreaks noBreak _ ih =>
      rw [collapse_run_append areBreaks noBreak, List.filter_append, List.filter_append,
        filter_flatten areBreaks, filter_flatten (areBreaks_shortened areBreaks), List.filter_cons,
        List.filter_cons, ih]

/-- **Collapsing is complete and stable.**  Where every carriage return has its line feed, the
collapsed text has no long run and does not change when it is collapsed again.  The other characters are
kept in their order; a run of two line breaks at most stays as it is between what the texts around it
become, and a longer one becomes a blank line there. -/
theorem collapse_completes (paired : ReturnsPaired text) :
    ¬ HasLongRun (collapse text) ∧ collapse (collapse text) = collapse text ∧
      (collapse text).filter (fun c => !isLineBreak c) = text.filter (fun c => !isLineBreak c) ∧
      ∀ before breaks after, IsWholeRun text before breaks after →
        (breaks.length ≤ 2 → IsWholeRun (collapse text) (collapse before) breaks (collapse after)) ∧
        (3 ≤ breaks.length →
          IsWholeRun (collapse text) (collapse before) ["\n", "\n"] (collapse after)) := by
  have inRuns := inRuns_of_paired paired
  have stable := inRuns.collapse_twice
  refine ⟨collapse_eq_self_iff.mp stable, stable, inRuns.filter_collapse, ?_⟩
  intro before breaks after whole
  have collapsed := whole.collapsed
  constructor
  · intro short
    rwa [shortened_of_short short] at collapsed
  · intro long
    rwa [shortened_of_long long] at collapsed

/-- The end of a letter: a long run, a short one and a single line break. -/
def closingLines : Text := "Groet,\n\r\n\n\r\nnamens\r\n\nAnna\r\n"

theorem collapse_completes_closingLines :
    ReturnsPaired closingLines ∧ ¬ HasLongRun (collapse closingLines) ∧
      collapse (collapse closingLines) = collapse closingLines ∧
      collapse closingLines = "Groet,\n\nnamens\r\n\nAnna\r\n" ∧
      IsWholeRun (collapse closingLines) "Groet,\n\nnamens" ["\r\n", "\n"] "Anna\r\n" := by
  have paired : ReturnsPaired closingLines := by decide
  obtain ⟨complete, stable, -, runs⟩ := collapse_completes paired
  have whole : IsWholeRun closingLines "Groet,\n\r\n\n\r\nnamens" ["\r\n", "\n"] "Anna\r\n" := by
    refine ⟨rfl, by simp [IsBreak], ?_, ?_⟩
    · intro c isLast
      obtain rfl := Option.some.inj (show some 's' = some c from isLast)
      rfl
    · intro c isFirst
      obtain rfl := Option.some.inj (show some 'A' = some c from isFirst)
      rfl
  exact ⟨paired, complete, stable, by decide, (runs _ _ _ whole).1 (by decide)⟩

end Covenant.BlankLines
