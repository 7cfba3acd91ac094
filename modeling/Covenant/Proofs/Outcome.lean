import Covenant.Fault
import Mathlib.Data.List.Basic
import Mathlib.Data.List.Forall2

/-!
# Computations that return or fail

When every step of a walk over a list returns a value, the walk returns what the values make
together, whether or not it stops early.  When steps fail, the walk fails with the first of them
that it comes to.
-/

namespace Covenant

namespace Outcome

theorem ok_bind {α β : Type} (value : α) (next : α → Outcome β) :
    (Except.ok value : Outcome α) >>= next = next value := rfl

/-- A computation in steps returns when each of its steps does. -/
theorem bind_eq_ok_iff {α β : Type} {first : Outcome α} {next : α → Outcome β} {result : β} :
    first >>= next = .ok result ↔ ∃ value, first = .ok value ∧ next value = .ok result := by
  cases first with
  | error fault => simp [bind, Except.bind]
  | ok value => simp [bind, Except.bind]

theorem map_eq_ok_iff {α β : Type} {first : Outcome α} {f : α → β} {result : β} :
    f <$> first = .ok result ↔ ∃ value, first = .ok value ∧ f value = result := by
  cases first with
  | error fault => simp [Functor.map, Except.map]
  | ok value => simp [Functor.map, Except.map]

theorem eq_ok_of_toOption {α : Type} {outcome : Outcome α} {value : α}
    (returns : outcome.toOption = some value) : outcome = .ok value := by
  cases outcome with
  | error fault => cases returns
  | ok result =>
      cases returns
      rfl

theorem of_all_toOption {α : Type} {outcome : Outcome α} {value : α} {holds : α → Bool}
    (all : outcome.toOption.all holds = true) (returns : outcome = .ok value) : holds value = true := by
  subst returns
  exact all

theorem mapM_eq_ok {α β : Type} {f : α → Outcome β} {g : α → β} {values : List α}
    (each : ∀ value ∈ values, f value = .ok (g value)) : values.mapM f = .ok (values.map g) := by
  induction values with
  | nil => rfl
  | cons value values ih =>
      rw [List.mapM_cons, each value (by simp), ih fun other member => each other (by simp [member])]
      rfl

theorem mapM_eq_ok_iff {α β : Type} {f : α → Outcome β} {values : List α} {results : List β} :
    values.mapM f = .ok results ↔ List.Forall₂ (fun value result => f value = .ok result) values results := by
  induction values generalizing results with
  | nil =>
      rw [List.mapM_nil, List.forall₂_nil_left_iff]
      exact ⟨fun same => (Except.ok.inj same).symm, fun same => same ▸ rfl⟩
  | cons value values ih =>
      rw [List.mapM_cons, bind_eq_ok_iff, List.forall₂_cons_left_iff]
      simp only [bind_eq_ok_iff, ih]
      constructor
      · rintro ⟨result, own, later, isLater, same⟩
        exact ⟨result, later, own, isLater, (Except.ok.inj same).symm⟩
      · rintro ⟨result, later, own, isLater, rfl⟩
        exact ⟨result, own, later, isLater, rfl⟩

theorem exists_of_forall₂ {α β : Type} {Related : α → β → Prop} {values : List α} {results : List β}
    (each : List.Forall₂ Related values results) {result : β} (member : result ∈ results) :
    ∃ value ∈ values, Related value result := by
  induction each with
  | nil => cases member
  | @cons value other values results own later ih =>
      rcases List.mem_cons.mp member with rfl | member
      · exact ⟨value, List.mem_cons_self, own⟩
      · obtain ⟨found, isMember, isResult⟩ := ih member
        exact ⟨found, List.mem_cons_of_mem value isMember, isResult⟩

/-- Every result of a walk is that of one of its steps. -/
theorem exists_of_mem_mapM {α β : Type} {f : α → Outcome β} {values : List α} {results : List β}
    (mapped : values.mapM f = .ok results) {result : β} (member : result ∈ results) :
    ∃ value ∈ values, f value = .ok result :=
  exists_of_forall₂ (mapM_eq_ok_iff.mp mapped) member

theorem mem_of_mem_filterAuxM {α : Type} {keeps : α → Outcome Bool} {values collecting kept : List α}
    (filtered : values.filterAuxM keeps collecting = .ok kept) {value : α} (member : value ∈ kept) :
    value ∈ values ∨ value ∈ collecting := by
  induction values generalizing collecting with
  | nil =>
      obtain rfl := Except.ok.inj filtered
      exact .inr member
  | cons first values ih =>
      obtain ⟨isKept, -, later⟩ := bind_eq_ok_iff.mp filtered
      rcases ih later with inLater | earlier
      · exact .inl (List.mem_cons_of_mem first inLater)
      · cases isKept with
        | false => exact .inr earlier
        | true =>
            rcases List.mem_cons.mp earlier with rfl | earlier
            · exact .inl List.mem_cons_self
            · exact .inr earlier

/-- A filter keeps none but the values that it is given. -/
theorem mem_of_mem_filterM {α : Type} {keeps : α → Outcome Bool} {values kept : List α}
    (filtered : values.filterM keeps = .ok kept) {value : α} (member : value ∈ kept) :
    value ∈ values := by
  obtain ⟨reversed, collected, same⟩ := bind_eq_ok_iff.mp filtered
  rw [← Except.ok.inj same] at member
  exact (mem_of_mem_filterAuxM collected (List.mem_reverse.mp member)).resolve_right nofun

/-! ## Returning -/

/-- A computation returns a value. -/
def Returns {α : Type} (outcome : Outcome α) : Prop := ∃ value, outcome = .ok value

section Returning

variable {α β : Type} {values : List α}

theorem returns_ok (value : α) : Returns (.ok value) := ⟨value, rfl⟩

theorem not_returns_error (fault : Fault) : ¬ Returns (.error fault : Outcome α) := nofun

theorem returns_map_iff {outcome : Outcome α} {f : α → β} :
    Returns (f <$> outcome) ↔ Returns outcome := by
  cases outcome with
  | error fault => exact iff_of_false nofun nofun
  | ok value => exact iff_of_true ⟨f value, rfl⟩ ⟨value, rfl⟩

theorem returns_bind_iff {first : Outcome α} {next : α → Outcome β} :
    Returns (first >>= next) ↔ ∃ value, first = .ok value ∧ Returns (next value) := by
  cases first with
  | error fault => exact iff_of_false nofun nofun
  | ok value => exact ⟨fun returns => ⟨value, rfl, returns⟩, fun ⟨_, same, returns⟩ => by
      obtain rfl := Except.ok.inj same
      exact returns⟩

theorem Returns.bind {first : Outcome α} {next : α → Outcome β} (returns : Returns first)
    (later : ∀ value, first = .ok value → Returns (next value)) : Returns (first >>= next) := by
  obtain ⟨value, same⟩ := returns
  exact returns_bind_iff.mpr ⟨value, same, later value same⟩

theorem Returns.of_bind {first : Outcome α} {next : α → Outcome β} (returns : Returns (first >>= next)) :
    Returns first :=
  have ⟨value, same, _⟩ := returns_bind_iff.mp returns
  ⟨value, same⟩

theorem returns_mapM_iff {f : α → Outcome β} :
    Returns (values.mapM f) ↔ ∀ value ∈ values, Returns (f value) := by
  induction values with
  | nil => exact iff_of_true ⟨[], rfl⟩ nofun
  | cons value values ih =>
      rw [List.mapM_cons, List.forall_mem_cons, ← ih]
      constructor
      · intro returns
        obtain ⟨result, own, later⟩ := returns_bind_iff.mp returns
        exact ⟨⟨result, own⟩, later.of_bind⟩
      · rintro ⟨own, later⟩
        exact own.bind fun _ _ => later.bind fun _ _ => returns_ok _

theorem returns_foldlM {f : β → α → Outcome β} (each : ∀ state, ∀ value ∈ values, Returns (f state value))
    (start : β) : Returns (values.foldlM f start) := by
  induction values generalizing start with
  | nil => exact ⟨start, rfl⟩
  | cons value values ih =>
      rw [List.foldlM_cons]
      exact (each start value List.mem_cons_self).bind fun next _ =>
        ih (fun state other member => each state other (List.mem_cons_of_mem value member)) next

theorem returns_filterAuxM {keeps : α → Outcome Bool} (each : ∀ value ∈ values, Returns (keeps value))
    (collecting : List α) : Returns (values.filterAuxM keeps collecting) := by
  induction values generalizing collecting with
  | nil => exact ⟨collecting, rfl⟩
  | cons value values ih =>
      exact (each value List.mem_cons_self).bind fun _ _ =>
        ih (fun other member => each other (List.mem_cons_of_mem value member)) _

theorem returns_filterM {keeps : α → Outcome Bool} (each : ∀ value ∈ values, Returns (keeps value)) :
    Returns (values.filterM keeps) :=
  (returns_filterAuxM each []).bind fun _ _ => returns_ok _

/-- A computation returns true. -/
def isTrue (outcome : Outcome Bool) : Bool := outcome.toOption == some true

theorem filterAuxM_eq_ok_iff {keeps : α → Outcome Bool} {collecting kept : List α} :
    values.filterAuxM keeps collecting = .ok kept ↔
      (∀ value ∈ values, Returns (keeps value)) ∧
        kept = (values.filter fun value => isTrue (keeps value)).reverse ++ collecting := by
  induction values generalizing collecting with
  | nil => exact ⟨fun same => ⟨nofun, (Except.ok.inj same).symm⟩, fun same => same.2 ▸ rfl⟩
  | cons value values ih =>
      rw [List.filterAuxM, List.forall_mem_cons, List.filter_cons]
      cases keeps value with
      | error fault => exact iff_of_false nofun fun holds => not_returns_error fault holds.1.1
      | ok isKept =>
          rw [ok_bind, ih, and_iff_right (returns_ok isKept)]
          cases isKept with
          | false => rfl
          | true => simp [isTrue, Except.toOption]

/-- A filter returns when every test does, and keeps what passes it. -/
theorem filterM_eq_ok_iff {keeps : α → Outcome Bool} {kept : List α} :
    values.filterM keeps = .ok kept ↔
      (∀ value ∈ values, Returns (keeps value)) ∧
        kept = values.filter fun value => isTrue (keeps value) := by
  rw [List.filterM, bind_eq_ok_iff]
  simp only [filterAuxM_eq_ok_iff, List.append_nil]
  constructor
  · rintro ⟨reversed, ⟨returns, rfl⟩, same⟩
    exact ⟨returns, by rw [← Except.ok.inj same, List.reverse_reverse]⟩
  · rintro ⟨returns, rfl⟩
    exact ⟨_, ⟨returns, rfl⟩, by rw [List.reverse_reverse]; rfl⟩

end Returning

section Joining

variable {m : Type → Type} [Monad m] [LawfulMonad m] {α : Type} {evaluate : α → m Bool}
  {truth : α → Bool} {children : List α}

theorem allM_eq_pure (each : ∀ child ∈ children, evaluate child = pure (truth child)) :
    children.allM evaluate = pure (children.all truth) := by
  induction children with
  | nil => simp
  | cons child children ih =>
      have later := ih fun other member => each other (by simp [member])
      rw [List.allM_cons, each child (by simp), pure_bind, later]
      cases own : truth child <;> simp [own]

theorem anyM_eq_pure (each : ∀ child ∈ children, evaluate child = pure (truth child)) :
    children.anyM evaluate = pure (children.any truth) := by
  induction children with
  | nil => simp
  | cons child children ih =>
      have later := ih fun other member => each other (by simp [member])
      rw [List.anyM_cons, each child (by simp), pure_bind, later]
      cases own : truth child <;> simp [own]

end Joining

/-! ## Failing for one reason -/

/-- A computation fails with a fault under a condition, and otherwise returns a value. -/
structure FailsIff {α : Type} (fault : Fault) (fails : Prop) (value : α) (outcome : Outcome α) :
    Prop where
  error : fails → outcome = .error fault
  ok : ¬ fails → outcome = .ok value

namespace FailsIff

variable {α : Type} {fault : Fault} {fails : Prop} {value : α} {outcome : Outcome α}

theorem of_ok (returns : outcome = .ok value) (never : ¬ fails) : FailsIff fault fails value outcome :=
  ⟨fun fails => absurd fails never, fun _ => returns⟩

theorem of_error (failed : outcome = .error fault) (always : fails) :
    FailsIff fault fails value outcome :=
  ⟨fun _ => failed, fun returns => absurd always returns⟩

theorem congr {other : Prop} (settles : FailsIff fault fails value outcome) (same : fails ↔ other) :
    FailsIff fault other value outcome :=
  propext same ▸ settles

theorem map {β : Type} (f : α → β) (settles : FailsIff fault fails value outcome) :
    FailsIff fault fails (f value) (f <$> outcome) where
  error fails := by rw [settles.error fails]; rfl
  ok returns := by rw [settles.ok returns]; rfl

end FailsIff

/-- A walk that goes on as long as it meets one truth value comes to a member of a list. -/
def ComesTo {α : Type} (truth : α → Bool) (onward : Bool) (children : List α) (child : α) : Prop :=
  ∃ earlier later, children = earlier ++ child :: later ∧ ∀ other ∈ earlier, truth other = onward

section Walks

variable {α : Type} {fault : Fault} {fails : α → Prop} {evaluate : α → Outcome Bool}
  {truth : α → Bool} {children : List α}

theorem exists_comesTo_cons {onward : Bool} {child : α} :
    (∃ failing, ComesTo truth onward (child :: children) failing ∧ fails failing) ↔
      fails child ∨ truth child = onward ∧
        ∃ failing, ComesTo truth onward children failing ∧ fails failing := by
  constructor
  · rintro ⟨failing, ⟨earlier, later, split, goesOn⟩, isFailing⟩
    rcases List.cons_eq_append_iff.mp split with ⟨rfl, same⟩ | ⟨earlier, rfl, same⟩
    · cases same
      exact .inl isFailing
    · exact .inr ⟨goesOn child (by simp), failing,
        ⟨earlier, later, same, fun other member => goesOn other (by simp [member])⟩, isFailing⟩
  · rintro (isFailing | ⟨own, failing, ⟨earlier, later, rfl, goesOn⟩, isFailing⟩)
    · exact ⟨child, ⟨[], children, rfl, nofun⟩, isFailing⟩
    · refine ⟨failing, ⟨child :: earlier, later, rfl, fun other member => ?_⟩, isFailing⟩
      rcases List.mem_cons.mp member with rfl | member
      · exact own
      · exact goesOn other member

theorem failsIff_allM
    (each : ∀ child ∈ children, FailsIff fault (fails child) (truth child) (evaluate child)) :
    FailsIff fault (∃ child, ComesTo truth true children child ∧ fails child) (children.all truth)
      (children.allM evaluate) := by
  induction children with
  | nil => exact .of_ok rfl (by simp [ComesTo])
  | cons child children ih =>
      have own := each child (by simp)
      have later := ih fun other member => each other (by simp [member])
      rw [exists_comesTo_cons, List.allM_cons]
      by_cases failing : fails child
      · exact .of_error (by rw [own.error failing]; rfl) (.inl failing)
      · rw [own.ok failing, ok_bind]
        cases holds : truth child with
        | true => simpa [holds, failing] using later
        | false => exact .of_ok (by simp [holds]; rfl) (by simp [failing])

theorem failsIff_anyM
    (each : ∀ child ∈ children, FailsIff fault (fails child) (truth child) (evaluate child)) :
    FailsIff fault (∃ child, ComesTo truth false children child ∧ fails child) (children.any truth)
      (children.anyM evaluate) := by
  induction children with
  | nil => exact .of_ok rfl (by simp [ComesTo])
  | cons child children ih =>
      have own := each child (by simp)
      have later := ih fun other member => each other (by simp [member])
      rw [exists_comesTo_cons, List.anyM_cons]
      by_cases failing : fails child
      · exact .of_error (by rw [own.error failing]; rfl) (.inl failing)
      · rw [own.ok failing, ok_bind]
        cases holds : truth child with
        | true => exact .of_ok (by simp [holds]; rfl) (by simp [failing])
        | false => simpa [holds, failing] using later

end Walks

end Outcome

end Covenant
