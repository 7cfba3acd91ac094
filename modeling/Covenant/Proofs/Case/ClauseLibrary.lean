import Covenant.Proofs.Completion

/-!
# The order of the clause library

The clauses that apply are put in order, and those of one order stay as they stand in the library.
Everything after that, from the texts of the clauses to the warnings, goes by the clauses in order.
So the places of clauses in the library matter for clauses of one order only: a library that is
rearranged otherwise gives the same documents.
-/

namespace Covenant

namespace Articles

/-- Clauses that come by their order. -/
def Ascending (clauses : List Clause) : Prop :=
  clauses.Pairwise fun first second => first.order ≤ second.order

def ofOrder (order : Int) (clauses : List Clause) : List Clause :=
  clauses.filter fun clause => clause.order = order

/-- Two libraries of the same clauses, in which the clauses of one order stand alike. -/
structure Rearranged (library other : List Clause) : Prop where
  permuted : library.Perm other
  ties : ∀ order, ofOrder order library = ofOrder order other

section Ordering

variable {clauses others : List Clause} {order : Int}

theorem mem_ofOrder {clause : Clause} :
    clause ∈ ofOrder order clauses ↔ clause ∈ clauses ∧ clause.order = order := by
  rw [ofOrder, List.mem_filter, decide_eq_true_eq]

/-- The first of ascending clauses has the least order among clauses with the same ties. -/
theorem order_le_of_ties {clause other : Clause} (ascending : Ascending (clause :: clauses))
    (ties : ∀ order, ofOrder order (clause :: clauses) = ofOrder order (other :: others)) :
    clause.order ≤ other.order := by
  have isOther : other ∈ ofOrder other.order (other :: others) :=
    mem_ofOrder.mpr ⟨List.mem_cons_self, rfl⟩
  rw [← ties] at isOther
  rcases List.mem_cons.mp (mem_ofOrder.mp isOther).1 with rfl | later
  · exact Int.le_refl _
  · exact (List.pairwise_cons.mp ascending).1 other later

/-- Ascending clauses are told by the clauses of every order. -/
theorem eq_of_ascending_of_ties (ascending : Ascending clauses) (othersAscending : Ascending others)
    (ties : ∀ order, ofOrder order clauses = ofOrder order others) : clauses = others := by
  induction clauses generalizing others with
  | nil =>
      cases others with
      | nil => rfl
      | cons other others => simpa [ofOrder] using ties other.order
  | cons clause clauses ih =>
      cases others with
      | nil => simpa [ofOrder] using ties clause.order
      | cons other others =>
          have sameOrder : other.order = clause.order :=
            Int.le_antisymm (order_le_of_ties othersAscending fun order => (ties order).symm)
              (order_le_of_ties ascending ties)
          have own := ties clause.order
          simp only [ofOrder, List.filter_cons, sameOrder, decide_true, if_true] at own
          obtain ⟨rfl, -⟩ := List.cons.inj own
          refine congrArg (clause :: ·) (ih ascending.tail othersAscending.tail fun order => ?_)
          have tie := ties order
          simp only [ofOrder, List.filter_cons] at tie
          split_ifs at tie
          · exact (List.cons.inj tie).2
          · exact tie

/-- Clauses put in order, as `select` does. -/
def inOrder (clauses : List Clause) : List Clause :=
  clauses.mergeSort fun first second => first.order ≤ second.order

theorem ascending_inOrder (clauses : List Clause) : Ascending (inOrder clauses) := by
  have sorted := @List.pairwise_mergeSort Clause (fun first second => first.order ≤ second.order)
    (fun first second third => by simpa using Int.le_trans)
    (fun first second => by simpa using Int.le_total first.order second.order) clauses
  exact sorted.imp fun holds => by simpa using holds

/-- Clauses with other orders may change places. -/
theorem rearranged_append_comm
    (apart : ∀ clause ∈ clauses, ∀ other ∈ others, clause.order ≠ other.order) :
    Rearranged (clauses ++ others) (others ++ clauses) where
  permuted := List.perm_append_comm
  ties order := by
    simp only [ofOrder, List.filter_append]
    by_cases isOrder : ∃ clause ∈ clauses, clause.order = order
    · obtain ⟨clause, member, rfl⟩ := isOrder
      have noOther : others.filter (fun other => other.order = clause.order) = [] :=
        List.filter_eq_nil_iff.mpr fun other isOther => by simpa using (apart clause member other isOther).symm
      rw [noOther, List.append_nil, List.nil_append]
    · have noClause : clauses.filter (fun clause => clause.order = order) = [] :=
        List.filter_eq_nil_iff.mpr fun clause member => by simpa using fun same => isOrder ⟨clause, member, same⟩
      rw [noClause, List.append_nil, List.nil_append]

/-- Putting clauses in order leaves those of one order as they stand. -/
theorem ofOrder_inOrder (order : Int) (clauses : List Clause) :
    ofOrder order (inOrder clauses) = ofOrder order clauses := by
  have alike : (ofOrder order clauses).Pairwise fun first second =>
      decide (first.order ≤ second.order) = true := by
    refine List.pairwise_of_forall_mem_list fun first isFirst second isSecond => ?_
    rw [decide_eq_true_eq, (mem_ofOrder.mp isFirst).2, (mem_ofOrder.mp isSecond).2]
  have kept : (ofOrder order clauses).Sublist (inOrder clauses) :=
    List.sublist_mergeSort (fun first second third => by simpa using Int.le_trans)
      (fun first second => by simpa using Int.le_total first.order second.order) alike
      List.filter_sublist
  have keptTies := kept.filter fun clause => clause.order = order
  have sameLength : (ofOrder order clauses).length = (ofOrder order (inOrder clauses)).length :=
    ((List.mergeSort_perm clauses _).filter _).length_eq.symm
  have again : (ofOrder order clauses).filter (fun clause => clause.order = order) =
      ofOrder order clauses := by
    rw [ofOrder, List.filter_filter]
    simp
  rw [again] at keptTies
  exact (keptTies.eq_of_length sameLength).symm

end Ordering

/-! ### Selecting and rendering -/

section Rendering

variable {settings : Settings} {source : Loop.Source} {scope : Scope} {library other selected clauses : List Clause}
  {rendering : Rendering}

theorem select_eq_ok_iff :
    select settings scope library = .ok selected ↔
      (∀ clause ∈ library, (applies settings scope clause).Returns) ∧
        selected = inOrder (library.filter fun clause => (applies settings scope clause).isTrue) := by
  rw [select, Outcome.bind_eq_ok_iff]
  simp only [Outcome.filterM_eq_ok_iff]
  constructor
  · rintro ⟨kept, ⟨returns, rfl⟩, same⟩
    exact ⟨returns, (Except.ok.inj same).symm⟩
  · rintro ⟨returns, rfl⟩
    exact ⟨_, ⟨returns, rfl⟩, rfl⟩

theorem ofOrder_filter (order : Int) (keeps : Clause → Bool) (clauses : List Clause) :
    ofOrder order (clauses.filter keeps) = (ofOrder order clauses).filter keeps := by
  rw [ofOrder, ofOrder, List.filter_comm]

theorem Rearranged.select_eq_ok_iff (rearranged : Rearranged library other) :
    select settings scope library = .ok selected ↔ select settings scope other = .ok selected := by
  have sameSelection (keeps : Clause → Bool) :
      inOrder (library.filter keeps) = inOrder (other.filter keeps) := by
    refine eq_of_ascending_of_ties (ascending_inOrder _) (ascending_inOrder _) fun order => ?_
    rw [ofOrder_inOrder, ofOrder_inOrder, ofOrder_filter, ofOrder_filter, rearranged.ties]
  rw [Articles.select_eq_ok_iff, Articles.select_eq_ok_iff, sameSelection]
  simp only [rearranged.permuted.mem_iff]

theorem Rearranged.render_eq_ok_iff (rearranged : Rearranged library other) :
    render source scope library = .ok rendering ↔ render source scope other = .ok rendering := by
  rw [render, render, Outcome.bind_eq_ok_iff, Outcome.bind_eq_ok_iff]
  simp only [rearranged.select_eq_ok_iff]

/-- The text of a clause is not blank: something is left of it without the white space around it. -/
def hasText (source : Loop.Source) (scope : Scope) (clause : Clause) : Bool :=
  (renderText source scope clause).toOption.any fun resolved => !resolved.text.isEmpty

/-- A clause is rendered as its own title and text. -/
structure IsRendered (source : Loop.Source) (scope : Scope) (item : RenderedClause) : Prop where
  body : (renderText source scope item.clause).map (·.text) = .ok item.body
  title : (item.clause.effectiveTitle >>= textOf).map (fun title =>
    Text.trim (Placeholder.resolve scope.names title)) = .ok item.title

/-- The clauses of a library as they are rendered: those that apply and have text, by their order,
and those of one order as they stand in the library. -/
structure Renders (source : Loop.Source) (scope : Scope) (library : List Clause)
    (rendered : List RenderedClause) : Prop where
  ascending : Ascending (rendered.map (·.clause))
  ties : ∀ order, ofOrder order (rendered.map (·.clause)) = (ofOrder order library).filter fun clause =>
    (applies source.settings scope clause).isTrue && hasText source scope clause
  own : ∀ item ∈ rendered, IsRendered source scope item

theorem clauses_renderEach (rendered : renderEach source scope clauses = .ok rendering) :
    rendering.clauses.map (·.clause) = clauses.filter (hasText source scope) ∧
      ∀ item ∈ rendering.clauses, IsRendered source scope item := by
  induction clauses generalizing rendering with
  | nil =>
      obtain rfl := Except.ok.inj rendered
      exact ⟨rfl, nofun⟩
  | cons clause clauses ih =>
      rw [renderEach] at rendered
      obtain ⟨body, isBody, rendered⟩ := Outcome.bind_eq_ok_iff.mp rendered
      have own : hasText source scope clause = !body.text.isEmpty := by
        rw [hasText, isBody]
        rfl
      rw [List.filter_cons, own]
      split at rendered
      · rename_i blank
        obtain ⟨later, isLater, same⟩ := Outcome.bind_eq_ok_iff.mp rendered
        obtain rfl := Except.ok.inj same
        rw [blank]
        have others := ih isLater
        exact others
      · rename_i filled
        obtain ⟨title, isTitle, rendered⟩ := Outcome.bind_eq_ok_iff.mp rendered
        obtain ⟨words, areWords, rendered⟩ := Outcome.bind_eq_ok_iff.mp rendered
        obtain ⟨later, isLater, same⟩ := Outcome.bind_eq_ok_iff.mp rendered
        obtain rfl := Except.ok.inj same
        obtain ⟨sameClauses, ownLater⟩ := ih isLater
        rw [Bool.not_eq_true] at filled
        rw [filled]
        refine ⟨congrArg (clause :: ·) sameClauses, List.forall_mem_cons.mpr ⟨⟨?_, ?_⟩, ownLater⟩⟩
        · rw [isBody]
          rfl
        · rw [isTitle, Outcome.ok_bind, areWords]
          rfl

theorem renders_of_render (rendered : render source scope library = .ok rendering) :
    Renders source scope library rendering.clauses := by
  obtain ⟨selected, isSelected, rendered⟩ := Outcome.bind_eq_ok_iff.mp rendered
  obtain ⟨-, rfl⟩ := select_eq_ok_iff.mp isSelected
  obtain ⟨sameClauses, own⟩ := clauses_renderEach rendered
  refine ⟨?_, fun order => ?_, own⟩
  · rw [sameClauses]
    exact (ascending_inOrder _).filter _
  · rw [sameClauses, ofOrder_filter, ofOrder_inOrder, ofOrder_filter, List.filter_filter]
    simp only [Bool.and_comm]

/-- Nothing that is rendered reads the library itself. -/
theorem renderEach_ignores_library (library clauses : List Clause) :
    renderEach { source with data := { source.data with clauses := library } } scope clauses =
      renderEach source scope clauses := by
  induction clauses with
  | nil => rfl
  | cons clause clauses ih =>
      rw [renderEach, renderEach, ih]
      rfl

end Rendering

end Articles

/-! ### The context and the texts of a case -/

namespace CaseContext

open Articles

variable {settings : Settings} {registry : Registry} {label : Text} {data : CaseData}
  {before after : Building} {library other : List Clause}

theorem addClauses_eq_ok_iff (filled : library ≠ []) :
    addClauses settings registry label { data with clauses := library } before = .ok after ↔
      ∃ rendering, render { settings, registry, data } (Scope.ofContext before.context) library =
        .ok rendering ∧ after = {
          context := (before.context.insert "ARTIKELEN" (assemble rendering.clauses)).insert
            "INHOUDSOPGAVE" (contents label contentsHeading rendering.clauses)
          diagnostics :=
            (before.diagnostics.warnAll rendering.warnings).addAllUnresolved rendering.unresolved } := by
  have sameRendering : render { settings, registry, data := { data with clauses := library } }
      (Scope.ofContext before.context) library =
        render { settings, registry, data } (Scope.ofContext before.context) library := by
    rw [render, render]
    congr 1
    funext selected
    exact @renderEach_ignores_library { settings, registry, data } _ library selected
  have notEmpty : library.isEmpty = false := by simpa using filled
  rw [addClauses]
  simp only [notEmpty, Bool.false_eq_true, if_false, Outcome.bind_eq_ok_iff]
  rw [sameRendering]
  refine exists_congr fun rendering => and_congr_right fun _ => ?_
  exact ⟨fun same => (Except.ok.inj same).symm, fun same => same ▸ rfl⟩

theorem addClauses_of_rearranged (rearranged : Rearranged library other) :
    addClauses settings registry label { data with clauses := library } before = .ok after ↔
      addClauses settings registry label { data with clauses := other } before = .ok after := by
  by_cases filled : library = []
  · subst filled
    rw [rearranged.permuted.nil_eq]
  · have otherFilled : other ≠ [] := fun none => filled (by simpa [none] using rearranged.permuted)
    rw [addClauses_eq_ok_iff filled, addClauses_eq_ok_iff otherFilled]
    simp only [rearranged.render_eq_ok_iff]

end CaseContext

namespace Resolver

open Articles CaseContext

theorem caseContext_eq_ok_iff {resolver : Resolver} {data : CaseData} {library : List Clause}
    {diagnostics : Diagnostics} {building : Building} :
    resolver.caseContext { data with clauses := library } diagnostics = .ok building ↔
      ∃ before after, chosen resolver.settings resolver.registry data diagnostics = .ok before ∧
        addClauses resolver.settings resolver.registry resolver.articleLabel
          { data with clauses := library } before = .ok after ∧
        building = { after with context := after.context.freeze } := by
  -- what comes before the clauses does not read the library
  have unread : chosen resolver.settings resolver.registry { data with clauses := library } diagnostics =
      chosen resolver.settings resolver.registry data diagnostics := rfl
  rw [caseContext, build_eq, unread, bind_assoc]
  simp only [Outcome.bind_eq_ok_iff]
  constructor
  · rintro ⟨before, isChosen, after, added, same⟩
    exact ⟨before, after, isChosen, added, (Except.ok.inj same).symm⟩
  · rintro ⟨before, after, isChosen, added, rfl⟩
    exact ⟨before, isChosen, after, added, rfl⟩

/-- **The clause library may be rearranged.**  Two libraries of the same clauses, in which clauses of
one order stand alike, give every template the same text and the same report.  The articles and the
table of contents are made of the clauses that apply and have text, by their order and those of one
order as they stand in the library. -/
theorem resolveText_of_rearranged (resolver : Resolver) (data : CaseData) {library other : List Clause}
    (rearranged : Rearranged library other) (correlationId text : Text) :
    (∀ resolution,
      resolver.resolveText correlationId { data with clauses := library } text = .ok resolution ↔
        resolver.resolveText correlationId { data with clauses := other } text = .ok resolution) ∧
    ∀ building, library ≠ [] →
      resolver.caseContext { data with clauses := library } { correlationId } = .ok building →
      ∃ before rendered,
        chosen resolver.settings resolver.registry data { correlationId } = .ok before ∧
        Renders { settings := resolver.settings, registry := resolver.registry, data }
          (Scope.ofContext before.context) library rendered ∧
        building.context.lookup "ARTIKELEN" = some (assemble rendered) ∧
        building.context.lookup "INHOUDSOPGAVE" =
          some (contents resolver.articleLabel contentsHeading rendered) := by
  refine ⟨fun resolution => ?_, fun building filled builds => ?_⟩
  · have unread : resolver.run { data with clauses := library } =
        resolver.run { data with clauses := other } := rfl
    rw [resolveText, resolveText, unread]
    simp only [Outcome.bind_eq_ok_iff, caseContext_eq_ok_iff,
      addClauses_of_rearranged rearranged]
  · obtain ⟨before, after, isChosen, added, rfl⟩ := caseContext_eq_ok_iff.mp builds
    obtain ⟨rendering, rendered, rfl⟩ := (addClauses_eq_ok_iff filled).mp added
    refine ⟨before, rendering.clauses, isChosen, renders_of_render rendered, ?_, ?_⟩
    · have differs : Text.sameLower "INHOUDSOPGAVE" "ARTIKELEN" = false := by decide +kernel
      have own : Text.sameLower "ARTIKELEN" "ARTIKELEN" = true := by simp [Text.sameLower]
      change ContextMap.lookup (ContextMap.insert _ _ _) _ = _
      rw [ContextMap.lookup_insert, differs, ContextMap.lookup_insert, own]
      rfl
    · have own : Text.sameLower "INHOUDSOPGAVE" "INHOUDSOPGAVE" = true := by simp [Text.sameLower]
      change ContextMap.lookup (ContextMap.insert _ _ _) _ = _
      rw [ContextMap.lookup_insert, own]
      rfl

/-! ### A rearranged library -/

/-- A clause that always applies. -/
def plainClause (order : Int) (title text : Text) : Clause := {
  code := .null, title := .text title, text := .text text, order, numbering := .newNumber
  isConditional := false, conditionField := .null, condition := .null, userTitle := .null
  userText := .null, caseText := .null, conditionError := none }

/-- Two clauses of one order, and one without text. -/
def openingClauses : List Clause :=
  [plainClause 1 "Partijen" "Te [[stad]].", plainClause 1 "Duur" "Tot [[einde]].",
    plainClause 1 "Leeg" "[[IF:einde]]Nooit.[[ENDIF:einde]]"]

def closingClause : Clause := plainClause 2 "Slot" "[[einde]]"

def cityData : CaseData := {
  fields := [(.text "stad", .text "Delft")]
  today := { year := 2025, month := 4, day := 17 } }

theorem cityClauses_rearranged :
    Rearranged ([closingClause] ++ openingClauses) (openingClauses ++ [closingClause]) :=
  rearranged_append_comm (by decide)

/-- The clauses apply in every case, so they only have to be put in order. -/
theorem render_cityClauses (source : Loop.Source) (scope : Scope) :
    render source scope ([closingClause] ++ openingClauses) =
      renderEach source scope (openingClauses ++ [closingClause]) := by
  have applying : ∀ clause ∈ [closingClause] ++ openingClauses,
      applies source.settings scope clause = .ok true := by
    intro clause member
    have unconditional : clause.isConditional = false := by
      revert clause
      decide
    simp only [applies, unconditional]
    rfl
  have ordered : inOrder ([closingClause] ++ openingClauses) = openingClauses ++ [closingClause] :=
    eq_of_ascending_of_ties (ascending_inOrder _) (by rw [Ascending]; decide) fun order => by
      rw [ofOrder_inOrder, cityClauses_rearranged.ties]
  have selected : select source.settings scope ([closingClause] ++ openingClauses) =
      .ok (openingClauses ++ [closingClause]) := by
    refine select_eq_ok_iff.mpr ⟨fun clause member => ⟨true, applying clause member⟩, ?_⟩
    rw [← ordered, List.filter_eq_self.mpr fun clause member => by rw [applying clause member]; rfl]
  rw [render, selected, Outcome.ok_bind]

theorem resolveText_cityData_rearranged :
    Rearranged ([closingClause] ++ openingClauses) (openingClauses ++ [closingClause]) ∧
      (∃ resolution,
        ({} : Resolver).resolveText "0"
            { cityData with clauses := [closingClause] ++ openingClauses } "[[INHOUDSOPGAVE]]" =
          .ok resolution ∧
        ({} : Resolver).resolveText "0"
            { cityData with clauses := openingClauses ++ [closingClause] } "[[INHOUDSOPGAVE]]" =
          .ok resolution ∧
        resolution.text = "Inhoudsopgave\nArticle 1: Partijen\nArticle 2: Duur\nArticle 3: Slot" ∧
        resolution.diagnostics.unresolved = [(("einde" : Text), 2)]) ∧
      ∃ building rendered,
        ({} : Resolver).caseContext { cityData with clauses := [closingClause] ++ openingClauses }
            { correlationId := "0" } = .ok building ∧
          Ascending (rendered.map (·.clause)) ∧
          building.context.lookup "ARTIKELEN" = some (assemble rendered) := by
  have evaluated :
      (({} : Resolver).resolveText "0" { cityData with clauses := [closingClause] ++ openingClauses }
        "[[INHOUDSOPGAVE]]").toOption.map (fun resolution =>
          (resolution.text, resolution.diagnostics.unresolved)) =
        some (("Inhoudsopgave\nArticle 1: Partijen\nArticle 2: Duur\nArticle 3: Slot" : Text),
          [(("einde" : Text), 2)]) := by
    rw [resolveText, caseContext, build_eq]
    unfold addClauses
    simp only [render_cityClauses]
    decide +kernel
  obtain ⟨resolution, resolved, same⟩ := Option.map_eq_some_iff.mp evaluated
  have resolves := Outcome.eq_ok_of_toOption resolved
  obtain ⟨isText, isReport⟩ := Prod.mk.inj same
  obtain ⟨building, builds, -⟩ := Outcome.bind_eq_ok_iff.mp resolves
  obtain ⟨sameTexts, articles⟩ :=
    resolveText_of_rearranged {} cityData cityClauses_rearranged "0" "[[INHOUDSOPGAVE]]"
  obtain ⟨before, rendered, -, renders, areArticles, -⟩ :=
    articles building (List.cons_ne_nil _ _) builds
  exact ⟨cityClauses_rearranged,
    ⟨resolution, resolves, (sameTexts resolution).mp resolves, isText, isReport⟩,
    building, rendered, builds, renders.ascending, areArticles⟩

end Resolver

end Covenant
