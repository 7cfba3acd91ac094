import Covenant.Proofs.Outcome
import Covenant.Resolver
import Mathlib.Algebra.BigOperators.Group.List.Basic
import Mathlib.Algebra.GroupWithZero.Nat

/-!
# The regions of a document

The regions of a document share the context of the case and one report.  Every pass starts afresh in
every region, so the text of a region is that of the region on its own, and the report says after
what the context left open what each region adds.  Only a region that fails is felt by the others:
then the document has no text at all.
-/

namespace Covenant

/-! ### Reports that grow -/

/-- How often a name stayed unresolved. -/
def Diagnostics.uses (diagnostics : Diagnostics) (name : Text) : Nat :=
  (diagnostics.unresolved.lookup name).getD 0

theorem lookup_countName (name other : Text) (counts : List (Text × Nat)) :
    ((countName other counts).lookup name).getD 0 =
      (counts.lookup name).getD 0 + if other = name then 1 else 0 := by
  induction counts with
  | nil =>
      rw [countName, List.lookup_cons]
      by_cases same : other = name
      · simp [same]
      · have differs : (name == other) = false := by simpa using fun isSame => same isSame.symm
        simp [same, differs]
  | cons count counts ih =>
      obtain ⟨first, uses⟩ := count
      rw [countName]
      by_cases own : first = other
      · subst own
        by_cases same : first = name
        · simp [same]
        · have differs : (name == first) = false := by simpa using fun isSame => same isSame.symm
          simp [same, List.lookup_cons, differs]
      · rw [if_neg own, List.lookup_cons, List.lookup_cons]
        by_cases same : name = first
        · subst same
          have differs : ¬ other = name := fun isSame => own isSame.symm
          simp [differs]
        · have differs : (name == first) = false := by simpa using same
          simp only [differs]
          exact ih

namespace Diagnostics

variable {diagnostics : Diagnostics}

/-- The same report under another identification. -/
def identified (correlationId : Text) (diagnostics : Diagnostics) : Diagnostics :=
  { diagnostics with correlationId }

@[simp]
theorem warnings_addAllUnresolved (names : List Text) :
    (diagnostics.addAllUnresolved names).warnings = diagnostics.warnings := by
  induction names generalizing diagnostics with
  | nil => rfl
  | cons name names ih => exact ih

theorem uses_addAllUnresolved (names : List Text) (name : Text) :
    (diagnostics.addAllUnresolved names).uses name = diagnostics.uses name + names.count name := by
  induction names generalizing diagnostics with
  | nil => rfl
  | cons first names ih =>
      have own : (diagnostics.addUnresolved first).uses name =
          diagnostics.uses name + if first = name then 1 else 0 :=
        lookup_countName name first diagnostics.unresolved
      have later : ((diagnostics.addUnresolved first).addAllUnresolved names).uses name =
          (diagnostics.addUnresolved first).uses name + names.count name := ih
      change ((diagnostics.addUnresolved first).addAllUnresolved names).uses name = _
      rw [later, own, List.count_cons]
      by_cases same : first = name
      · simp only [same, if_true, beq_self_eq_true]
        omega
      · simp [same]

theorem addAllUnresolved_identified (correlationId : Text) (names : List Text) :
    (diagnostics.identified correlationId).addAllUnresolved names =
      (diagnostics.addAllUnresolved names).identified correlationId := by
  induction names generalizing diagnostics with
  | nil => rfl
  | cons name names ih => exact @ih (diagnostics.addUnresolved name)

end Diagnostics

/-- What is added to a report: warnings, and further uses of unresolved names. -/
structure Addition where
  warnings : List Text
  uses : Text → Nat

/-- The report `after` says what the report `before` says, and then the addition. -/
structure Addition.Extends (addition : Addition) (before after : Diagnostics) : Prop where
  warnings : after.warnings = before.warnings ++ addition.warnings
  uses : ∀ name, after.uses name = before.uses name + addition.uses name

namespace Resolved

/-- What the resolution of one text adds to a report. -/
def addition (resolved : Resolved) : Addition :=
  ⟨resolved.warnings, fun name => resolved.unresolved.count name⟩

theorem extends_record (resolved : Resolved) (diagnostics : Diagnostics) :
    resolved.addition.Extends diagnostics (Resolver.record diagnostics resolved) where
  warnings := Diagnostics.warnings_addAllUnresolved resolved.unresolved
  uses := Diagnostics.uses_addAllUnresolved resolved.unresolved

/-- The addition does not depend on the identification of the report. -/
theorem extends_record_identified (resolved : Resolved) (diagnostics : Diagnostics)
    (correlationId : Text) :
    resolved.addition.Extends diagnostics
      (Resolver.record (diagnostics.identified correlationId) resolved) := by
  have extended := resolved.extends_record (diagnostics.identified correlationId)
  exact ⟨extended.warnings, extended.uses⟩

/-- A report to which several resolutions are added says them one after the other. -/
theorem extends_foldl_record (runs : List Resolved) (diagnostics : Diagnostics) :
    (runs.foldl Resolver.record diagnostics).warnings =
        diagnostics.warnings ++ runs.flatMap (·.addition.warnings) ∧
      ∀ name, (runs.foldl Resolver.record diagnostics).uses name =
        diagnostics.uses name + (runs.map (·.addition.uses name)).sum := by
  induction runs generalizing diagnostics with
  | nil => simp
  | cons resolved runs ih =>
      obtain ⟨laterWarnings, laterUses⟩ := ih (Resolver.record diagnostics resolved)
      have own := resolved.extends_record diagnostics
      rw [List.foldl_cons]
      refine ⟨?_, fun name => ?_⟩
      · rw [laterWarnings, own.warnings, List.flatMap_cons, List.append_assoc]
      · rw [laterUses, own.uses, List.map_cons, List.sum_cons, Nat.add_assoc]

end Resolved

/-! ### The context under another identification -/

namespace CaseContext

variable {settings : Settings} {registry : Registry} {data : CaseData} {label : Text}

def Building.identified (correlationId : Text) (building : Building) : Building :=
  { building with diagnostics := building.diagnostics.identified correlationId }

theorem addConditional_identified (correlationId : Text) (building : Building)
    (placeholder : ConditionalPlaceholder) :
    addConditional settings (building.identified correlationId) placeholder =
      (addConditional settings building placeholder).map (Building.identified correlationId) := by
  obtain ⟨key, configuration⟩ := placeholder
  cases configuration with
  | object members =>
      change (Rules.evaluate settings building.context (.object members) >>= _) =
        (Rules.evaluate settings building.context (.object members) >>= _).map _
      cases Rules.evaluate settings building.context (.object members) with
      | error fault => rfl
      | ok result => cases key <;> rfl
  | _ => cases key <;> rfl

theorem foldlM_addConditional_identified (correlationId : Text)
    (placeholders : List ConditionalPlaceholder) (building : Building) :
    placeholders.foldlM (addConditional settings) (building.identified correlationId) =
      (placeholders.foldlM (addConditional settings) building).map
        (Building.identified correlationId) := by
  induction placeholders generalizing building with
  | nil => rfl
  | cons placeholder placeholders ih =>
      rw [List.foldlM_cons, List.foldlM_cons, addConditional_identified]
      cases addConditional settings building placeholder with
      | error fault => rfl
      | ok next => exact ih next

theorem addClauses_identified (correlationId : Text) (building : Building) :
    addClauses settings registry label data (building.identified correlationId) =
      (addClauses settings registry label data building).map
        (Building.identified correlationId) := by
  rw [addClauses, addClauses]
  split
  · rfl
  · change (Articles.render { settings, registry, data } (Scope.ofContext building.context)
        data.clauses >>= _) =
      (Articles.render { settings, registry, data } (Scope.ofContext building.context)
        data.clauses >>= _).map _
    cases Articles.render { settings, registry, data } (Scope.ofContext building.context)
        data.clauses with
    | error fault => rfl
    | ok rendering =>
        let warned := building.diagnostics.warnAll rendering.warnings
        have same : (warned.identified correlationId).addAllUnresolved rendering.unresolved =
            (warned.addAllUnresolved rendering.unresolved).identified correlationId :=
          Diagnostics.addAllUnresolved_identified correlationId rendering.unresolved
        exact congrArg Except.ok (congrArg (Building.mk _) same)

theorem build_identified (correlationId : Text) (diagnostics : Diagnostics) :
    build settings registry label data (diagnostics.identified correlationId) =
      (build settings registry label data diagnostics).map (Building.identified correlationId) := by
  rw [build, build]
  cases base settings registry data with
  | error fault => rfl
  | ok context =>
      rw [Outcome.ok_bind, Outcome.ok_bind]
      change (data.conditionalPlaceholders.foldlM (addConditional settings)
        (Building.identified correlationId ⟨context, diagnostics⟩) >>= _) = _
      rw [foldlM_addConditional_identified correlationId]
      cases data.conditionalPlaceholders.foldlM (addConditional settings)
          (⟨context, diagnostics⟩ : Building) with
      | error fault => rfl
      | ok building => exact addClauses_identified correlationId building

end CaseContext

/-! ### Regions -/

namespace Resolver

variable {resolver : Resolver} {data : CaseData} {context : ContextMap}

section Run

variable {diagnostics : Diagnostics} {regions : List (Text × Text)}

theorem resolveRegions_cons (diagnostics : Diagnostics) (region : Text × Text)
    (regions : List (Text × Text)) :
    resolver.resolveRegions data context diagnostics (region :: regions) = (do
      let resolved ← resolver.run data context region.2
      let (rest, final) ←
        resolver.resolveRegions data context (record diagnostics resolved) regions
      return ((region.1, resolved.text) :: rest, final)) := rfl

/-- When every region can be resolved, each becomes its own text, and all are reported. -/
theorem resolveRegions_of_runs {runs : List Resolved}
    (each : List.Forall₂ (fun region resolved => resolver.run data context region.2 = .ok resolved)
      regions runs) :
    resolver.resolveRegions data context diagnostics regions =
      .ok (List.zipWith (fun region resolved => (region.1, resolved.text)) regions runs,
        runs.foldl record diagnostics) := by
  induction each generalizing diagnostics with
  | nil => rfl
  | @cons region resolved regions runs own later ih =>
      rw [resolveRegions_cons, own, Outcome.ok_bind, ih]
      rfl

/-- The first region that fails ends the document with its fault. -/
theorem resolveRegions_of_fault {earlier later : List (Text × Text)} {region : Text × Text}
    {fault : Fault}
    (returns : ∀ other ∈ earlier, ∃ resolved, resolver.run data context other.2 = .ok resolved)
    (fails : resolver.run data context region.2 = .error fault) :
    resolver.resolveRegions data context diagnostics (earlier ++ region :: later) =
      .error fault := by
  induction earlier generalizing diagnostics with
  | nil =>
      rw [List.nil_append, resolveRegions_cons, fails]
      rfl
  | cons first earlier ih =>
      obtain ⟨⟨resolved, own⟩, others⟩ := List.forall_mem_cons.mp returns
      rw [List.cons_append, resolveRegions_cons, own, Outcome.ok_bind, ih others]
      rfl

/-- Either all regions can be resolved, or there is a first one that fails. -/
theorem exists_runs_or_fault (resolver : Resolver) (data : CaseData) (context : ContextMap)
    (regions : List (Text × Text)) :
    (∃ runs, List.Forall₂ (fun region resolved => resolver.run data context region.2 = .ok resolved)
      regions runs) ∨
    ∃ earlier region later fault, regions = earlier ++ region :: later ∧
      (∀ other ∈ earlier, ∃ resolved, resolver.run data context other.2 = .ok resolved) ∧
      resolver.run data context region.2 = .error fault := by
  induction regions with
  | nil => exact .inl ⟨[], .nil⟩
  | cons region regions ih =>
      cases own : resolver.run data context region.2 with
      | error fault => exact .inr ⟨[], region, regions, fault, rfl, nofun, own⟩
      | ok resolved =>
          rcases ih with ⟨runs, each⟩ | ⟨earlier, failing, later, fault, rfl, returns, fails⟩
          · exact .inl ⟨resolved :: runs, .cons own each⟩
          · exact .inr ⟨region :: earlier, failing, later, fault, rfl,
              List.forall_mem_cons.mpr ⟨⟨resolved, own⟩, returns⟩, fails⟩

end Run

variable {building : CaseContext.Building} {documentId : Text}

theorem caseContext_identified
    (builds : resolver.caseContext data { correlationId := documentId } = .ok building)
    (textId : Text) :
    resolver.caseContext data { correlationId := textId } =
      .ok (building.identified textId) := by
  obtain ⟨thawed, built, frozen⟩ := Outcome.bind_eq_ok_iff.mp builds
  obtain rfl := Except.ok.inj frozen
  rw [caseContext, show ({ correlationId := textId } : Diagnostics) =
    ({ correlationId := documentId } : Diagnostics).identified textId from rfl,
    CaseContext.build_identified textId, built]
  rfl

/-- A text on its own is resolved in the context of the case, whatever the report is called. -/
theorem resolveText_eq
    (builds : resolver.caseContext data { correlationId := documentId } = .ok building)
    (textId text : Text) :
    resolver.resolveText textId data text =
      (resolver.run data building.context text).map fun resolved =>
        ⟨resolved.text, record (building.diagnostics.identified textId) resolved⟩ := by
  rw [resolveText, caseContext_identified builds textId, Outcome.ok_bind]
  change (resolver.run data building.context text >>= _) = _
  cases resolver.run data building.context text <;> rfl

theorem resolveText_eq_ok_iff
    (builds : resolver.caseContext data { correlationId := documentId } = .ok building)
    (textId text : Text) :
    (∃ resolution, resolver.resolveText textId data text = .ok resolution) ↔
      ∃ resolved, resolver.run data building.context text = .ok resolved := by
  rw [resolveText_eq builds]
  cases resolver.run data building.context text with
  | error fault => simp [Except.map]
  | ok resolved => simp [Except.map]

theorem resolveText_eq_error_iff
    (builds : resolver.caseContext data { correlationId := documentId } = .ok building)
    (textId text : Text) (fault : Fault) :
    resolver.resolveText textId data text = .error fault ↔
      resolver.run data building.context text = .error fault := by
  rw [resolveText_eq builds]
  cases resolver.run data building.context text with
  | error other => simp [Except.map]
  | ok resolved => simp [Except.map]

theorem resolveDocument_eq
    (builds : resolver.caseContext data { correlationId := documentId } = .ok building)
    (regions : List (Text × Text)) :
    resolver.resolveDocument documentId data regions =
      (resolver.resolveRegions data building.context building.diagnostics regions).map
        fun (regions, diagnostics) => { regions, diagnostics, context := building.context } := by
  rw [resolveDocument, builds, Outcome.ok_bind]
  cases resolver.resolveRegions data building.context building.diagnostics regions <;> rfl

end Resolver

/-- A document agrees with its regions: every region has the text that it has on its own, and the
report says after what the context left open what each region adds on its own. -/
structure DocumentResolution.Agrees (resolver : Resolver) (data : CaseData) (textId : Text)
    (building : CaseContext.Building) (regions : List (Text × Text))
    (document : DocumentResolution) : Prop where
  names : document.regions.map (·.1) = regions.map (·.1)
  texts : List.Forall₂ (fun region text => ∃ resolution,
    resolver.resolveText textId data region.2 = .ok resolution ∧ resolution.text = text)
    regions (document.regions.map (·.2))
  additions : ∃ additions : List Addition,
    List.Forall₂ (fun region addition => ∀ resolution,
      resolver.resolveText textId data region.2 = .ok resolution →
        addition.Extends building.diagnostics resolution.diagnostics) regions additions ∧
    document.diagnostics.warnings =
      building.diagnostics.warnings ++ additions.flatMap (·.warnings) ∧
    ∀ name, document.diagnostics.uses name =
      building.diagnostics.uses name + (additions.map (·.uses name)).sum

namespace Resolver

variable {resolver : Resolver} {data : CaseData} {building : CaseContext.Building}
  {documentId textId : Text} {regions : List (Text × Text)}

/-- The document made of runs has the names of the regions and the texts of the runs. -/
theorem map_zipWith_runs {runs : List Resolved} (sameLength : regions.length = runs.length) :
    let written := List.zipWith (fun region resolved => (region.1, resolved.text)) regions runs
    written.map (·.1) = regions.map (·.1) ∧ written.map (·.2) = runs.map (·.text) := by
  induction regions generalizing runs with
  | nil =>
      obtain rfl := List.length_eq_zero_iff.mp sameLength.symm
      exact ⟨rfl, rfl⟩
  | cons region regions ih =>
      cases runs with
      | nil => cases sameLength
      | cons resolved runs =>
          obtain ⟨names, texts⟩ := ih (Nat.succ.inj sameLength)
          exact ⟨congrArg (region.1 :: ·) names, congrArg (resolved.text :: ·) texts⟩

theorem agrees_of_runs
    (builds : resolver.caseContext data { correlationId := documentId } = .ok building)
    (textId : Text) {runs : List Resolved}
    (each : List.Forall₂ (fun region resolved =>
      resolver.run data building.context region.2 = .ok resolved) regions runs) :
    DocumentResolution.Agrees resolver data textId building regions
      { regions := List.zipWith (fun region resolved => (region.1, resolved.text)) regions runs
        diagnostics := runs.foldl record building.diagnostics
        context := building.context } := by
  obtain ⟨names, texts⟩ := map_zipWith_runs each.length_eq
  obtain ⟨warnings, uses⟩ := Resolved.extends_foldl_record runs building.diagnostics
  refine ⟨names, ?_, runs.map Resolved.addition, ?_, ?_, ?_⟩
  · rw [texts, List.forall₂_map_right_iff]
    refine each.imp fun region resolved ran => ?_
    rw [resolveText_eq builds, ran]
    exact ⟨_, rfl, rfl⟩
  · rw [List.forall₂_map_right_iff]
    refine each.imp fun region resolved ran resolution resolves => ?_
    rw [resolveText_eq builds, ran] at resolves
    obtain rfl := Except.ok.inj resolves
    exact resolved.extends_record_identified building.diagnostics textId
  · rw [warnings, List.flatMap_map]
  · intro name
    rw [uses, List.map_map]
    rfl

/-- **Regions are independent as long as none fails.**  In the context of a case a document agrees
with its regions, text by text and in its report, exactly when every region can be resolved on its
own.  Otherwise the document fails, with the fault of the first region that does. -/
theorem resolveDocument_agrees_iff (resolver : Resolver) (data : CaseData) (documentId textId : Text)
    (regions : List (Text × Text)) (building : CaseContext.Building)
    (builds : resolver.caseContext data { correlationId := documentId } = .ok building) :
    ((∃ document, resolver.resolveDocument documentId data regions = .ok document ∧
        document.Agrees resolver data textId building regions) ↔
      ∀ region ∈ regions, ∃ resolution,
        resolver.resolveText textId data region.2 = .ok resolution) ∧
    ∀ fault, resolver.resolveDocument documentId data regions = .error fault ↔
      ∃ earlier region later, regions = earlier ++ region :: later ∧
        (∀ other ∈ earlier, ∃ resolution,
          resolver.resolveText textId data other.2 = .ok resolution) ∧
        resolver.resolveText textId data region.2 = .error fault := by
  simp only [resolveText_eq_ok_iff builds, resolveText_eq_error_iff builds,
    resolveDocument_eq builds]
  rcases exists_runs_or_fault resolver data building.context regions with
    ⟨runs, each⟩ | ⟨earlier, region, later, fault, rfl, returns, fails⟩
  · have resolves : ∀ region ∈ regions, ∃ resolved,
        resolver.run data building.context region.2 = .ok resolved := by
      intro region member
      obtain ⟨resolved, -, ran⟩ := Outcome.exists_of_forall₂ each.flip member
      exact ⟨resolved, ran⟩
    rw [resolveRegions_of_runs each]
    refine ⟨iff_of_true ⟨_, rfl, agrees_of_runs builds textId each⟩ resolves, fun fault => ?_⟩
    refine iff_of_false nofun ?_
    rintro ⟨earlier, region, later, rfl, -, fails⟩
    obtain ⟨resolved, ran⟩ := resolves region (by simp)
    cases fails.symm.trans ran
  · rw [resolveRegions_of_fault returns fails]
    refine ⟨iff_of_false nofun ?_, fun other => ⟨?_, ?_⟩⟩
    · intro resolves
      obtain ⟨resolved, ran⟩ := resolves region (by simp)
      cases fails.symm.trans ran
    · intro same
      obtain rfl := Except.error.inj same
      exact ⟨earlier, region, later, rfl, returns, fails⟩
    · rintro ⟨before, failing, after, same, returnsBefore, failsThere⟩
      have again : resolver.resolveRegions data building.context building.diagnostics
          (before ++ failing :: after) = .error _ := resolveRegions_of_fault returnsBefore failsThere
      rw [← same, resolveRegions_of_fault returns fails] at again
      exact congrArg (Except.map _) again

/-! ### A letter -/

/-- A case that leaves something open in its context. -/
def letterData : CaseData := {
  fields := [(.text "stad", .text "Utrecht")]
  conditionalPlaceholders := [⟨.text "slot", .null⟩]
  today := { year := 2025, month := 5, day := 2 } }

/-- Two regions that leave the same name open. -/
def letterRegions : List (Text × Text) :=
  [("body", "[[stad]], [[datum]]"), ("header:0", "[[ENDIF:stad]][[datum]][[Stad]]")]

theorem resolveDocument_letterRegions_agrees : ∃ building,
    ({} : Resolver).caseContext letterData { correlationId := "0" } = .ok building ∧
      (∀ region ∈ letterRegions, ∃ resolution,
        ({} : Resolver).resolveText "1" letterData region.2 = .ok resolution) ∧
      ∃ document, ({} : Resolver).resolveDocument "0" letterData letterRegions = .ok document ∧
        document.Agrees {} letterData "1" building letterRegions ∧
        document.regions.map (·.2) = ["Utrecht, [[datum]]", "[[ENDIF:stad]][[datum]]Utrecht"] := by
  have builtOnce : (({} : Resolver).caseContext letterData { correlationId := "0" }).toOption.isSome =
      true := by decide +kernel
  have eachResolved : ∀ region ∈ letterRegions,
      (({} : Resolver).resolveText "1" letterData region.2).toOption.isSome = true := by
    decide +kernel
  have texts : (({} : Resolver).resolveDocument "0" letterData letterRegions).toOption.map
      (fun document => document.regions.map (·.2)) =
        some (["Utrecht, [[datum]]", "[[ENDIF:stad]][[datum]]Utrecht"] : List Text) := by
    decide +kernel
  obtain ⟨building, built⟩ := Option.isSome_iff_exists.mp builtOnce
  have builds := Outcome.eq_ok_of_toOption built
  have resolves : ∀ region ∈ letterRegions, ∃ resolution,
      ({} : Resolver).resolveText "1" letterData region.2 = .ok resolution := by
    intro region member
    obtain ⟨resolution, resolved⟩ := Option.isSome_iff_exists.mp (eachResolved region member)
    exact ⟨resolution, Outcome.eq_ok_of_toOption resolved⟩
  obtain ⟨document, written, agrees⟩ :=
    (resolveDocument_agrees_iff {} letterData "0" "1" letterRegions building builds).1.mpr resolves
  rw [written] at texts
  exact ⟨building, builds, resolves, document, written, agrees, Option.some.inj texts⟩

/-- A child with blank first names, whose call name no loop can find. -/
def namelessData : CaseData := {
  children := [{
    id := none, firstNames := .text " ", surname := .text [], insertion := .text []
    callName := .text [], gender := .text [], birthDate := none, birthPlace := .text []
    recognitionDate := none }]
  today := { year := 2025, month := 5, day := 2 } }

/-- The text of a region is lost when another region fails, though the context has been built. -/
theorem document_fails_with_a_region :
    ¬ ∀ (resolver : Resolver) (data : CaseData) (documentId textId : Text)
      (regions : List (Text × Text)) (building : CaseContext.Building),
      resolver.caseContext data { correlationId := documentId } = .ok building →
      ∃ document, resolver.resolveDocument documentId data regions = .ok document ∧
        ∀ name text resolution, (name, text) ∈ regions →
          resolver.resolveText textId data text = .ok resolution →
            (name, resolution.text) ∈ document.regions := by
  intro claimed
  have builtOnce : (({} : Resolver).caseContext namelessData { correlationId := "0" }).toOption.isSome =
      true := by decide +kernel
  obtain ⟨building, built⟩ := Option.isSome_iff_exists.mp builtOnce
  obtain ⟨document, written, -⟩ := claimed {} namelessData "0" "1"
    [("body", "Tekst"), ("header:0", "[[#ALLE_KINDEREN]][[KIND_ROEPNAAM]][[/ALLE_KINDEREN]]")]
    building (Outcome.eq_ok_of_toOption built)
  have fails : (({} : Resolver).resolveDocument "0" namelessData
      [("body", "Tekst"), ("header:0", "[[#ALLE_KINDEREN]][[KIND_ROEPNAAM]][[/ALLE_KINDEREN]]")]).toOption.isNone =
        true := by decide +kernel
  rw [written] at fails
  cases fails

end Resolver

end Covenant
