import Covenant.CommandLine.Commands
import Covenant.Proofs.Case.Demands
import Covenant.Proofs.Console.Markup
import Covenant.Proofs.Text.Pieces

/-!
# Loading case data

A command loads its case data before it does anything else.  A file that is no text, a text that is no
JSON and most values that are no case data are refused with one message, and nothing is written.  Three
kinds of demands break the command off instead when they are the first that are not met.
-/

namespace Covenant

namespace Demand

open Workplace (isReported)

/-- Demands whose fault is not reported when they are not met: members of what is no object, the
integer of an infinity, and the numbering of a clause that is no text. -/
inductive Escapes : Demand → Prop where
  | members {stored : Value} (noObject : ∀ found, stored ≠ .object found) : Escapes (.members stored)
  | number (negative : Bool) : Escapes (.number (.float (.infinite negative)))
  | word {stored : Value} (noText : ∀ content, stored ≠ .text content) : Escapes (.word stored)

section Reported

variable {α β : Type}

/-- Whatever fault a computation has is reported. -/
def Reports (outcome : Outcome α) : Prop :=
  ∀ fault, outcome = .error fault → isReported fault = true

theorem reports_ok (value : α) : Reports (.ok value) := nofun

theorem reports_error {fault : Fault} (reported : isReported fault = true) :
    Reports (.error fault : Outcome α) := by
  rintro _ ⟨⟩
  exact reported

theorem Reports.bind {outcome : Outcome α} {next : α → Outcome β} (reports : Reports outcome)
    (later : ∀ value, Reports (next value)) : Reports (outcome >>= next) := by
  cases outcome with
  | ok value => exact later value
  | error fault => exact reports_error (reports fault rfl)

theorem Reports.mapM {f : α → Outcome β} (each : ∀ value, Reports (f value)) (values : List α) :
    Reports (values.mapM f) := by
  induction values with
  | nil => exact reports_ok _
  | cons value values ih =>
      rw [List.mapM_cons]
      exact (each value).bind fun _ => ih.bind fun _ => reports_ok _

theorem reports_parts (stored : Value) : Reports stored.parts := by
  cases stored with
  | list items => exact reports_ok _
  | text content => exact reports_ok _
  | object members => exact reports_ok _
  | null => exact reports_error rfl
  | bool truth => exact reports_error rfl
  | int number => exact reports_error rfl
  | float number => exact reports_error rfl

theorem reports_listed (stored : Value) : Reports (CaseData.listed stored) := by
  rw [CaseData.listed]
  split
  · exact reports_parts stored
  · exact reports_ok _

theorem reports_ofParts (index : Nat) (pairs : KeyedValues) (parts : List Value) :
    Reports (KeyedValues.ofParts index pairs parts) := by
  induction parts generalizing index pairs with
  | nil => exact reports_ok _
  | cons part parts ih =>
      rw [KeyedValues.ofParts]
      split
      · exact reports_error rfl
      · split
        · exact ih _ _
        · exact reports_error rfl
      · exact reports_error rfl

theorem reports_pairs (stored : Value) : Reports (KeyedValues.ofValue stored) := by
  unfold KeyedValues.ofValue
  split
  · split
    · exact reports_ok _
    · exact (reports_parts _).bind fun _ => reports_ofParts 0 [] _
  · exact reports_ok _

theorem reports_ofRecord (stored : Value) : Reports (ConditionalPlaceholder.ofRecord stored) := by
  unfold ConditionalPlaceholder.ofRecord
  split
  · split
    · exact reports_ok _
    · exact reports_error rfl
  · exact reports_error rfl
  · exact reports_error rfl
  · exact reports_error rfl

theorem reports_rules (stored : Value) : Reports (ConditionalPlaceholder.listOf stored) := by
  unfold ConditionalPlaceholder.listOf
  split
  · split
    · exact reports_ok _
    · exact (reports_parts _).bind fun _ => Reports.mapM reports_ofRecord _
  · exact reports_ok _

theorem reports_condition (stored : Value) : Reports (Clause.conditionOf stored) := by
  unfold Clause.conditionOf
  split
  · split
    · exact reports_ok _
    · split
      · exact reports_ok _
      · exact reports_ok _
      · exact reports_error rfl
  · exact reports_ok _

/-- Of the numbers only the infinities have a fault that is not reported. -/
theorem isReported_asInteger_iff {stored : Value} {fault : Fault} (failed : stored.asInteger = .error fault) :
    isReported fault = false ↔ ∃ negative, stored = .float (.infinite negative) := by
  cases stored with
  | bool truth => cases failed
  | int number => cases failed
  | float number =>
      cases number with
      | nan =>
          cases failed
          exact iff_of_false nofun nofun
      | infinite negative =>
          cases failed
          exact iff_of_true rfl ⟨negative, rfl⟩
      | finite negative mantissa exponent => cases failed
  | text content =>
      rw [Value.asInteger, Value.integerOfText] at failed
      split at failed
      · cases failed
      · cases failed
        exact iff_of_false nofun nofun
      · cases failed
        exact iff_of_false nofun nofun
  | null =>
      cases failed
      exact iff_of_false nofun nofun
  | list items =>
      cases failed
      exact iff_of_false nofun nofun
  | object found =>
      cases failed
      exact iff_of_false nofun nofun

theorem escapes_iff {demand : Demand} {fault : Fault} (unmet : demand.fault? = some fault) :
    demand.Escapes ↔ isReported fault = false := by
  have reported {α : Type} {outcome : Outcome α} (reports : Reports outcome)
      (failed : outcome.fault? = some fault) : isReported fault ≠ false := by
    rw [reports fault (Outcome.fault?_eq_some_iff.mp failed)]
    decide
  cases demand with
  | members stored =>
      cases stored with
      | object found => cases unmet
      | _ =>
        cases unmet
        exact iff_of_true (.members (by simp)) rfl
  | parts stored => exact iff_of_false nofun (reported (reports_listed stored) unmet)
  | pairs stored => exact iff_of_false nofun (reported (reports_pairs stored) unmet)
  | rules stored => exact iff_of_false nofun (reported (reports_rules stored) unmet)
  | condition stored => exact iff_of_false nofun (reported (reports_condition stored) unmet)
  | number stored =>
      rw [isReported_asInteger_iff (Outcome.fault?_eq_some_iff.mp unmet)]
      constructor
      · rintro ⟨negative⟩
        exact ⟨_, rfl⟩
      · rintro ⟨negative, rfl⟩
        exact .number negative
  | word stored =>
      cases stored with
      | text content => cases unmet
      | _ =>
        cases unmet
        exact iff_of_true (.word (by simp)) rfl

theorem Escapes.fault?_ne_none {demand : Demand} (escapes : demand.Escapes) : demand.fault? ≠ none := by
  cases escapes with
  | @members stored noObject =>
      cases stored with
      | object found => exact absurd rfl (noObject found)
      | _ => exact nofun
  | number negative => exact nofun
  | @word stored noText =>
      cases stored with
      | text content => exact absurd rfl (noText content)
      | _ => exact nofun

/-- The first demand that is not met is one whose fault is not reported. -/
def EscapesFirst (demands : List Demand) : Prop :=
  ∃ before demand after, demands = before ++ demand :: after ∧
    (∀ earlier ∈ before, earlier.fault? = none) ∧ demand.Escapes

theorem escapesFirst_iff {demands : List Demand} :
    EscapesFirst demands ↔ ∃ fault, firstFault? demands = some fault ∧ isReported fault = false := by
  constructor
  · rintro ⟨before, demand, after, rfl, met, escapes⟩
    obtain ⟨fault, unmet⟩ := Option.ne_none_iff_exists'.mp escapes.fault?_ne_none
    exact ⟨fault, List.findSome?_eq_some_iff.mpr ⟨before, demand, after, rfl, unmet, met⟩,
      (escapes_iff unmet).mp escapes⟩
  · rintro ⟨fault, first, unreported⟩
    obtain ⟨before, demand, after, rfl, unmet, met⟩ := List.findSome?_eq_some_iff.mp first
    exact ⟨before, demand, after, rfl, met, (escapes_iff unmet).mpr unreported⟩

end Reported

end Demand

namespace Workplace

/-- The case data that a command reads. -/
def dataPath? : Command → Option Text
  | .resolve _ data _ _ | .generate _ data _ _ | .check _ data => some data
  | .placeholders _ => none

/-- The value in a file whose text is JSON. -/
def storedIn? : FileContent → Option Value
  | .text text => (Value.ofJson (Text.normalizeBreaks text)).toOption
  | _ => none

/-- The content of a file is read as case data. -/
def Accepts (place : Workplace) (content : FileContent) : Prop :=
  ∃ stored data, storedIn? content = some stored ∧ CaseData.ofValue place.today stored = .ok data

/-- The content of a file is JSON whose first unmet demand has a fault that is not reported. -/
def BreaksOff (content : FileContent) : Prop :=
  ∃ stored, storedIn? content = some stored ∧ Demand.EscapesFirst (Demand.ofCase stored)

/-- The words in front of every message about case data. -/
def announced : Text := "Could not read case data"

/-- One message and the exit code 1, and nothing else. -/
def EndsCleanly (report : Report) : Prop :=
  ∃ text, announced ++ [' '] <+: text ∧ report = { console := [.line text], exitCode := 1 }

section Refusal

variable {path message : Text}

/-- The line for a message about case data. -/
def refusalLine (path message : Text) : Text :=
  "[red]Could not read case data " ++ Path.shown path ++ ": " ++ Markup.escape message ++ "[/red]"

theorem refusalLine_eq (path message : Text) :
    refusalLine path message = "[red]".toList ++ (announced ++ ' ' ::
      (Path.shown path ++ ':' :: ' ' :: (Markup.escape message ++ "[/red]".toList))) := by
  have start : "[red]Could not read case data ".toList = "[red]".toList ++ (announced ++ [' ']) := by
    decide +kernel
  have colon : ": ".toList = [':', ' '] := by
    decide +kernel
  unfold refusalLine
  rw [start, colon]
  simp only [List.append_assoc, List.cons_append, List.nil_append]

theorem refuseCase_of_line {report next : Report}
    (written : report.withLine (refusalLine path message) = .ok next) :
    refuseCase report path message = .error { next with exitCode := 1 } := by
  unfold refusalLine at written
  unfold refuseCase
  rw [written]

theorem refuseCase_of_failure {report next : Report}
    (failed : report.withLine (refusalLine path message) = .error next) :
    refuseCase report path message = .error next := by
  unfold refusalLine at failed
  unfold refuseCase
  rw [failed]

/-- A line that cannot be shown leaves nothing behind but the exit code. -/
theorem withLine_cases (line : Text) :
    (∃ text, Report.withLine {} line = .ok { console := [.line text] }) ∨
      ∃ report, Report.withLine {} line = .error report ∧ report.written = [] ∧ report.exitCode = 1 := by
  rw [Report.withLine, Report.plain]
  cases Markup.plain? line with
  | error fault => exact .inr ⟨_, rfl, rfl, rfl⟩
  | ok shown =>
      cases shown with
      | none => exact .inr ⟨_, rfl, rfl, rfl⟩
      | some text => exact .inl ⟨text, rfl⟩

theorem noOpening_shown (noMarkup : '[' ∉ path) : '[' ∉ Path.shown path := by
  have noNames : '[' ∉ Text.joinWith "/" (Path.parts path) := by
    intro member
    rcases Text.mem_of_mem_joinWith member with isSlash | ⟨part, isPart, inPart⟩
    · exact absurd isSlash (by decide +kernel)
    · exact noMarkup (Text.mem_of_mem_splitAt (List.mem_of_mem_filter isPart) inPart)
  rw [Path.shown]
  split
  · rw [List.mem_cons, not_or]
    exact ⟨by decide, noNames⟩
  · split
    · decide
    · exact noNames

theorem exists_plain?_refusalLine (noMarkup : '[' ∉ path) (message : Text) :
    ∃ text, Markup.plain? (refusalLine path message) = .ok (some text) := by
  have noOpening : '[' ∉ announced ++ ' ' :: (Path.shown path ++ [':']) := by
    have inPath := noOpening_shown noMarkup
    simp only [List.mem_append, List.mem_cons, List.not_mem_nil, or_false, not_or]
    exact ⟨by decide, by decide, inPath, by decide⟩
  have shown := Markup.exists_plain?_red noOpening message
  rw [refusalLine_eq]
  simpa only [List.append_assoc, List.cons_append, List.nil_append] using shown

/-- A refusal says what it is about and does nothing else. -/
theorem endsCleanly_of_refuseCase (noMarkup : '[' ∉ path) (message : Text) :
    ∃ report, refuseCase {} path message = .error report ∧ EndsCleanly report := by
  obtain ⟨text, shown⟩ := exists_plain?_refusalLine noMarkup message
  have starts : announced ++ [' '] <+: text := by
    rw [refusalLine_eq] at shown
    exact Markup.prefix_of_plain?_red (by decide +kernel) (by decide +kernel) shown
  have isLine : Report.withLine {} (refusalLine path message) = .ok { console := [.line text] } := by
    rw [Report.withLine, Report.plain, shown]
    rfl
  exact ⟨_, refuseCase_of_line isLine, text, starts, rfl⟩

/-- A refusal writes nothing, whether or not its line can be shown. -/
theorem exists_refuseCase_eq (path message : Text) :
    ∃ report, refuseCase {} path message = .error report ∧ report.written = [] ∧ report.exitCode = 1 := by
  rcases withLine_cases (refusalLine path message) with ⟨text, written⟩ | ⟨report, failed, nothing⟩
  · exact ⟨_, refuseCase_of_line written, rfl, rfl⟩
  · exact ⟨report, refuseCase_of_failure failed, nothing⟩

end Refusal

/-! ### Loading -/

section Loading

variable {place : Workplace} {command : Command} {path : Text} {content : FileContent}

/-- What loading comes to: case data, a refusal, or a fault that is not reported. -/
inductive Loads (place : Workplace) (path : Text) (content : FileContent) : Prop where
  | accepted (accepts : place.Accepts content) (goesOn : ¬ BreaksOff content)
  | refused (message : Text) (refuses : place.loadCase {} path = refuseCase {} path message)
      (noData : ¬ place.Accepts content) (goesOn : ¬ BreaksOff content)
  | brokenOff (fault : Fault)
      (breaks : place.loadCase {} path = .error (Report.brokenOff {} (.fault fault)))
      (noData : ¬ place.Accepts content) (breaksOff : BreaksOff content)

theorem exists_of_storedIn? {stored : Value} (isStored : storedIn? content = some stored) :
    ∃ text, content = .text text ∧ Value.ofJson (Text.normalizeBreaks text) = .ok stored := by
  cases content with
  | text text =>
      cases parsed : Value.ofJson (Text.normalizeBreaks text) with
      | error failure =>
          rw [storedIn?, parsed] at isStored
          cases isStored
      | ok value =>
          rw [storedIn?, parsed] at isStored
          cases isStored
          exact ⟨text, rfl, parsed⟩
  | document document => cases isStored
  | unreadable => cases isStored

theorem loads_of_value {stored : Value} (found : Files.target place.files path = .file content)
    (isStored : storedIn? content = some stored) : Loads place path content := by
  have isFault := Demand.fault?_case place.today stored
  have breaksOff : BreaksOff content ↔ Demand.EscapesFirst (Demand.ofCase stored) := by
    simp only [BreaksOff, isStored, Option.some.injEq, exists_eq_left']
  have accepts : place.Accepts content ↔ ∃ data, CaseData.ofValue place.today stored = .ok data := by
    simp [Accepts, isStored]
  cases read : CaseData.ofValue place.today stored with
  | ok data =>
      rw [read] at isFault accepts
      refine .accepted (accepts.mpr ⟨data, rfl⟩) ?_
      rw [breaksOff, Demand.escapesFirst_iff, ← isFault]
      exact nofun
  | error fault =>
      rw [read] at isFault accepts
      have noData : ¬ place.Accepts content := by
        rw [accepts]
        exact nofun
      have reason : BreaksOff content ↔ isReported fault = false := by
        rw [breaksOff, Demand.escapesFirst_iff, ← isFault]
        simp [Outcome.fault?]
      obtain ⟨text, rfl, parsed⟩ := exists_of_storedIn? isStored
      have parsedCase : place.parseCase (Text.normalizeBreaks text) = .error (.fault fault) := by
        rw [parseCase, parsed]
        dsimp only
        rw [read]
        rfl
      have loaded : place.loadCase {} path =
          if isReported fault then refuseCase {} path fault.message
          else .error (Report.brokenOff {} (.fault fault)) := by
        rw [loadCase, found]
        dsimp only
        rw [parsedCase]
      cases reported : isReported fault with
      | true =>
          rw [reported] at loaded reason
          exact .refused fault.message loaded noData (by simp [reason])
      | false =>
          rw [reported] at loaded reason
          exact .brokenOff fault loaded noData (reason.mpr rfl)

theorem loads (found : Files.target place.files path = .file content) : Loads place path content := by
  cases isStored : storedIn? content with
  | some stored => exact loads_of_value found isStored
  | none =>
      have noData : ¬ place.Accepts content := by
        simp [Accepts, isStored]
      have goesOn : ¬ BreaksOff content := by
        simp [BreaksOff, isStored]
      cases content with
      | document document => exact .refused _ (by rw [loadCase, found]) noData goesOn
      | unreadable => exact .refused _ (by rw [loadCase, found]) noData goesOn
      | text text =>
          cases parsed : Value.ofJson (Text.normalizeBreaks text) with
          | ok stored =>
              rw [storedIn?, parsed] at isStored
              cases isStored
          | error failure =>
              cases failure with
              | fault fault remaining =>
                  have refuses : place.loadCase {} path = refuseCase {} path
                      (fault.describe (Text.normalizeBreaks text) remaining) := by
                    rw [loadCase, found]
                    dsimp only
                    rw [parseCase, parsed]
                  exact .refused _ refuses noData goesOn
              | tooManyDigits count =>
                  have refuses : place.loadCase {} path =
                      refuseCase {} path (Fault.tooManyDigits count).message := by
                    rw [loadCase, found]
                    dsimp only
                    rw [parseCase, parsed]
                    rfl
                  exact .refused _ refuses noData goesOn

/-- A command does nothing before its case data are loaded. -/
theorem run_of_error {report : Report} (reads : dataPath? command = some path)
    (failed : place.loadCase {} path = .error report) : place.run command = report := by
  cases command with
  | placeholders template => cases reads
  | resolve template data output label =>
      obtain rfl := Option.some.inj reads
      rw [run, resolve, failed]
      rfl
  | generate template data output label =>
      obtain rfl := Option.some.inj reads
      rw [run, generate, failed]
      rfl
  | check template data =>
      obtain rfl := Option.some.inj reads
      rw [run, check, failed]
      rfl

end Loading

/-- A directory with a template and a file for case data. -/
def placeWith (data : Text) : Workplace where
  today := { year := 2025, month := 11, day := 3 }
  correlationId := []
  files := [⟨["t.txt"], .text "x"⟩, ⟨["c.json"], .text data⟩]

def checking : Command := .check "t.txt" "c.json"

/-- Case data of which neither the fields nor the parties can be read. -/
def numberFields : Text := "\x7b\"parties\": [1], \"fields\": 5\x7d"

/-- The fields are read before the parties, so that the members of a number are not looked up. -/
theorem reported_numberFields :
    (storedIn? (.text numberFields)).map
        (fun stored => (Demand.firstFault? (Demand.ofCase stored)).map isReported) =
      some (some true) := by
  decide +kernel

end Workplace

end Covenant
