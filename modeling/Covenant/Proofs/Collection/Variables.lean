import Covenant.Proofs.Template.LoopVariable
import Covenant.Proofs.Text.Upper

/-!
# What the variables of a record show

A record has a variable for every field of its collection and, under a name made of its key, for every
member.  A member is left out when a variable has its very name already, but a body reads variables in
any letter case and takes the last one.  So a field prevails over all members when its name is in upper
case, as the names made of keys are, and a field with another name loses to a member that gets the same
name in upper case.
-/

namespace Covenant

namespace Loop

variable {values : Members} {name other : Text} {value : Value}

theorem valueOf?_concat : valueOf? (values ++ [(other, value)]) name =
    if Text.upper other = Text.upper name then some value else valueOf? values name := by
  rw [valueOf?, List.reverse_append, List.reverse_singleton, List.singleton_append, List.find?_cons]
  by_cases same : Text.upper other = Text.upper name
  · simp [same]
  · simp [same, valueOf?]

theorem valueOf?_of_mem (distinct : (values.map fun pair => Text.upper pair.1).Nodup)
    (member : (name, value) ∈ values) : valueOf? values name = some value := by
  rw [valueOf?]
  cases found : values.reverse.find? fun pair => Text.upper pair.1 = Text.upper name with
  | none =>
      have differs := List.find?_eq_none.mp found (name, value) (List.mem_reverse.mpr member)
      simp at differs
  | some pair =>
      have isPair := List.mem_reverse.mp (List.mem_of_find?_eq_some found)
      have same : Text.upper pair.1 = Text.upper name := by simpa using List.find?_some found
      obtain rfl := List.inj_on_of_nodup_map distinct isPair member same
      rfl

end Loop

namespace Collection

variable {settings : Settings} {data : CaseData} {stem suffix : Text} {fields : List ItemField}
  {field : ItemField} {record values : Members}

/-- The text of a member that is no field: its plain form, or nothing for null. -/
def memberText (stored : Value) : Text := if stored.isNull then [] else stored.plain

/-- The first member of a record whose variable ends with the given suffix. -/
def memberNamed? (record : Members) (suffix : Text) : Option Value :=
  (record.find? fun member => Naming.variableSuffix member.1 = suffix).map (·.2)

theorem upper_variableSuffix (key : Text) :
    Text.upper (Naming.variableSuffix key) = Naming.variableSuffix key :=
  Text.upper_upper _

theorem addMembers_cons (key : Text) (stored : Value) :
    addMembers stem ((key, stored) :: record) values =
      addMembers stem record
        (if (values.lookup (stem ++ Naming.variableSuffix key)).isSome then values
          else values ++ [(stem ++ Naming.variableSuffix key, .text (memberText stored))]) :=
  rfl

/-- A name in upper case stands for the first member that is called so, unless a variable has the
name already. -/
theorem valueOf?_addMembers (capital : Text.upper suffix = suffix) :
    Loop.valueOf? (addMembers stem record values) (stem ++ suffix) =
      if (values.lookup (stem ++ suffix)).isSome then Loop.valueOf? values (stem ++ suffix)
      else ((memberNamed? record suffix).map fun stored => .text (memberText stored)).or
        (Loop.valueOf? values (stem ++ suffix)) := by
  induction record generalizing values with
  | nil => simp [addMembers, memberNamed?]
  | cons member record ih =>
      obtain ⟨key, stored⟩ := member
      rw [addMembers_cons, ih]
      by_cases called : Naming.variableSuffix key = suffix
      · subst called
        have isFirst : memberNamed? ((key, stored) :: record) (Naming.variableSuffix key) =
            some stored := by
          simp [memberNamed?]
        rw [isFirst]
        split
        · rfl
        · rw [if_pos (by simp [List.lookup_append]), Loop.valueOf?_concat, if_pos rfl]
          rfl
      · have isLater : memberNamed? ((key, stored) :: record) suffix = memberNamed? record suffix := by
          simp [memberNamed?, called]
        have otherName : stem ++ suffix ≠ stem ++ Naming.variableSuffix key := fun same =>
          called (List.append_cancel_left same).symm
        have otherCapitals : Text.upper (stem ++ Naming.variableSuffix key) ≠
            Text.upper (stem ++ suffix) := by
          rw [Text.upper_append, Text.upper_append, capital, upper_variableSuffix]
          exact fun same => called (List.append_cancel_left same)
        rw [isLater]
        split
        · rfl
        · have noPair : List.lookup (stem ++ suffix)
              [(stem ++ Naming.variableSuffix key, Value.text (memberText stored))] = none :=
            List.lookup_eq_none_iff.mpr (by simpa using otherName)
          rw [List.lookup_append, noPair, Option.or_none, Loop.valueOf?_concat, if_neg otherCapitals]

/-! ### Fields -/

/-- The variables that a record has before its members are added: one for every field. -/
structure AreWorded (settings : Settings) (data : CaseData) (stem : Text) (fields : List ItemField)
    (record pairs : Members) : Prop where
  names : pairs.map (·.1) = fields.map fun field => stem ++ field.name
  texts : ∀ field ∈ fields, ∃ formatted, fieldValue settings data record field = .ok formatted ∧
    (stem ++ field.name, .text formatted) ∈ pairs

theorem exists_areWorded {pairs : Members}
    (read : (fields.mapM fun field => do
      return (stem ++ field.name, Value.text (← fieldValue settings data record field))) = .ok pairs) :
    AreWorded settings data stem fields record pairs := by
  have each : List.Forall₂ (fun field pair => ∃ formatted,
      fieldValue settings data record field = .ok formatted ∧
        (stem ++ field.name, Value.text formatted) = pair) fields pairs :=
    (Outcome.mapM_eq_ok_iff.mp read).imp fun field pair own => by
      obtain ⟨formatted, isFormatted, same⟩ := Outcome.bind_eq_ok_iff.mp own
      exact ⟨formatted, isFormatted, Except.ok.inj same⟩
  constructor
  · clear read
    induction each with
    | nil => rfl
    | cons own _ ih =>
        obtain ⟨_, -, rfl⟩ := own
        rw [List.map_cons, List.map_cons, ih]
  · intro field member
    obtain ⟨pair, isPair, formatted, isFormatted, rfl⟩ := Outcome.exists_of_forall₂ each.flip member
    exact ⟨formatted, isFormatted, isPair⟩

namespace AreWorded

variable {pairs : Members} (worded : AreWorded settings data stem fields record pairs)
include worded

theorem upper_nodup (distinct : (fields.map fun field => Text.upper field.name).Nodup) :
    (pairs.map fun pair => Text.upper pair.1).Nodup := by
  have names : pairs.map (fun pair => Text.upper pair.1) =
      (fields.map fun field => Text.upper field.name).map fun name => Text.upper stem ++ name := by
    simpa [Function.comp_def, Text.upper_append] using congrArg (List.map Text.upper) worded.names
  rw [names]
  exact distinct.map (List.append_right_injective _)

theorem lookup_isSome_iff :
    (pairs.lookup (stem ++ suffix)).isSome = true ↔ ∃ field ∈ fields, field.name = suffix := by
  have named : (pairs.lookup (stem ++ suffix)).isSome = true ↔ stem ++ suffix ∈ pairs.map (·.1) := by
    rw [List.lookup_isSome_iff, List.mem_map]
    exact exists_congr fun pair => and_congr_right fun _ => by rw [beq_iff_eq, eq_comm]
  rw [named, worded.names, List.mem_map]
  exact exists_congr fun field => and_congr_right fun _ => List.append_right_inj stem

/-- The variable of a field has the wording of the field, or the text of the first member with its name
in upper case when the field has another name. -/
theorem valueOf?_field (distinct : (fields.map fun field => Text.upper field.name).Nodup)
    (member : field ∈ fields) {formatted : Text}
    (isFormatted : fieldValue settings data record field = .ok formatted) :
    Loop.valueOf? (addMembers stem record pairs) (stem ++ field.name) =
      some (.text (if Text.upper field.name = field.name then formatted
        else ((memberNamed? record (Text.upper field.name)).map memberText).getD formatted)) := by
  have capital := Text.upper_upper field.name
  have sameName : Text.upper (stem ++ field.name) = Text.upper (stem ++ Text.upper field.name) := by
    rw [Text.upper_append, Text.upper_append, capital]
  obtain ⟨wording, isWording, isPair⟩ := worded.texts field member
  obtain rfl := Except.ok.inj (isFormatted.symm.trans isWording)
  have own : Loop.valueOf? pairs (stem ++ Text.upper field.name) = some (.text formatted) :=
    (Loop.valueOf?_congr sameName.symm).trans (Loop.valueOf?_of_mem (worded.upper_nodup distinct) isPair)
  rw [Loop.valueOf?_congr sameName, valueOf?_addMembers capital, own]
  by_cases isCapital : Text.upper field.name = field.name
  · rw [if_pos isCapital, if_pos (worded.lookup_isSome_iff.mpr ⟨field, member, isCapital.symm⟩)]
  · rw [if_neg isCapital, if_neg]
    · cases memberNamed? record (Text.upper field.name) <;> rfl
    · intro isGiven
      obtain ⟨other, isOther, isCalled⟩ := worded.lookup_isSome_iff.mp isGiven
      -- the field of this name is the same field, which has it in upper case then
      obtain rfl := List.inj_on_of_nodup_map distinct isOther member
        (by rw [isCalled, Text.upper_upper])
      exact isCapital isCalled.symm

/-- The variable of a member that shares its name with no field and no member in front. -/
theorem valueOf?_member {key : Text} {stored : Value} {before after : Members}
    (isRecord : record = before ++ (key, stored) :: after)
    (noField : ∀ field ∈ fields, field.name ≠ Naming.variableSuffix key)
    (noMember : ∀ other ∈ before, Naming.variableSuffix other.1 ≠ Naming.variableSuffix key) :
    Loop.valueOf? (addMembers stem record pairs) (stem ++ Naming.variableSuffix key) =
      some (.text (memberText stored)) := by
  have isFirst : memberNamed? record (Naming.variableSuffix key) = some stored := by
    have noneBefore : before.find? (fun member =>
        Naming.variableSuffix member.1 = Naming.variableSuffix key) = none :=
      List.find?_eq_none.mpr fun other member => by simpa using noMember other member
    rw [memberNamed?, isRecord, List.find?_append, noneBefore]
    simp
  rw [valueOf?_addMembers (upper_variableSuffix key), isFirst, if_neg]
  · rfl
  · intro isGiven
    obtain ⟨field, member, isCalled⟩ := worded.lookup_isSome_iff.mp isGiven
    exact noField field member isCalled

end AreWorded

/-- A field whose name is in upper case prevails over all members.  Another one prevails when no member
has a variable of its name in upper case, or the first that has holds the same text. -/
def Prevails (record : Members) (field : ItemField) (formatted : Text) : Prop :=
  Text.upper field.name = field.name ∨
    ∀ stored, memberNamed? record (Text.upper field.name) = some stored → memberText stored = formatted

theorem prevails_iff {formatted : Text} : Prevails record field formatted ↔
    (if Text.upper field.name = field.name then formatted
      else ((memberNamed? record (Text.upper field.name)).map memberText).getD formatted) =
        formatted := by
  rw [Prevails]
  split
  · rename_i isCapital
    simp [isCapital]
  · rename_i noCapital
    cases memberNamed? record (Text.upper field.name) <;> simp [noCapital]

/-- A record of a collection whose fields have different names in upper case can be rendered in every
body.  Each of its fields shows its wording just where it prevails, and a member shows its plain text
where no field and no other member has its name. -/
theorem itemValues_show {collection : Collection} {otherNames : List Text}
    (hasFields : collection.source = .records fields otherNames)
    (distinct : (fields.map fun field => Text.upper field.name).Nodup)
    (written : collection.itemValues settings data (.record record) = .ok values) :
    (∀ body, Outcome.Returns (Loop.renderItem values body)) ∧
    (∀ field ∈ fields, ∃ formatted, fieldValue settings data record field = .ok formatted ∧
      (Prevails record field formatted →
        Loop.Shows values (collection.stem ++ field.name) formatted) ∧
      (Loop.IsVariableName (collection.stem ++ field.name) →
        Loop.Shows values (collection.stem ++ field.name) formatted →
          Prevails record field formatted)) ∧
    ∀ before key stored after, record = before ++ (key, stored) :: after →
      (∀ field ∈ fields, Text.upper field.name ≠ Text.upper (Naming.variableSuffix key)) →
      (∀ other ∈ before ++ after,
        Text.upper (Naming.variableSuffix other.1) ≠ Text.upper (Naming.variableSuffix key)) →
      Loop.Shows values (collection.stem ++ Naming.variableSuffix key) (memberText stored) := by
  have itemTexts : (Item.record record).HasTexts := trivial
  refine ⟨Loop.returns_renderItem (areTexts_itemValues itemTexts written), ?_⟩
  rw [itemValues.eq_def, hasFields] at written
  obtain ⟨pairs, read, same⟩ := Outcome.bind_eq_ok_iff.mp written
  have worded := exists_areWorded read
  have names : (pairs.map (·.1)).Nodup :=
    List.Nodup.of_map Text.upper (by simpa [Function.comp_def] using worded.upper_nodup distinct)
  rw [Members.ofPairs_eq_self names] at same
  obtain rfl := Except.ok.inj same
  constructor
  · intro field member
    obtain ⟨formatted, isFormatted, -⟩ := worded.texts field member
    have given := worded.valueOf?_field distinct member isFormatted
    refine ⟨formatted, isFormatted, fun prevails => ?_, fun isName shows => ?_⟩
    · rw [prevails_iff.mp prevails] at given
      exact Loop.shows_of_valueOf? given
    · exact prevails_iff.mpr (shows.eq isName given).symm
  · intro before key stored after isRecord noField noMember
    refine Loop.shows_of_valueOf? (worded.valueOf?_member isRecord ?_ ?_)
    · exact fun field member same => noField field member (congrArg Text.upper same)
    · exact fun other member same =>
        noMember other (List.mem_append_left _ member) (congrArg Text.upper same)

/-! ### Accounts -/

def accountField (name : Text) : ItemField := { name, source := "iban", kind := .accountNumber }

/-- Accounts with one field, for the number of the account. -/
def accounts (name : Text) : Collection :=
  { name := "Accounts", stem := "ACCOUNT_", source := .records [accountField name] [] }

def accountRecord : Members := [("iban", .text "NL91ABNA0417164300"), ("bankNaam", .text "A")]

def accountData : CaseData := { today := { year := 2025, month := 11, day := 12 } }

/-- The number is shown in groups of four, and the bank as it is. -/
theorem itemValues_show_accounts :
    ∃ values, (accounts "IBAN").itemValues {} accountData (.record accountRecord) = .ok values ∧
      Loop.Shows values "ACCOUNT_IBAN" "NL91 ABNA 0417 1643 00" ∧
      Loop.Shows values "ACCOUNT_BANK_NAAM" "A" := by
  obtain ⟨values, written⟩ : ∃ values,
      (accounts "IBAN").itemValues {} accountData (.record accountRecord) = .ok values := ⟨_, rfl⟩
  have hasFields : (accounts "IBAN").source = .records [accountField "IBAN"] [] := rfl
  obtain ⟨-, shown, rest⟩ := itemValues_show hasFields (by decide +kernel) written
  obtain ⟨formatted, isFormatted, prevailing, -⟩ := shown _ (List.mem_singleton_self _)
  have grouped : (fieldValue {} accountData accountRecord (accountField "IBAN")).toOption =
      some "NL91 ABNA 0417 1643 00" := by
    decide +kernel
  rw [isFormatted] at grouped
  obtain rfl := Option.some.inj grouped
  refine ⟨values, written, prevailing (.inl (by decide +kernel)), ?_⟩
  exact rest [("iban", .text "NL91ABNA0417164300")] "bankNaam" (.text "A") [] rfl
    (by decide +kernel) (by decide +kernel)

/-- A field with a small letter in its name loses to the member that it comes from. -/
theorem itemValues_hide_respelled :
    ([accountField "Iban"].map fun field => Text.upper field.name).Nodup ∧
      (fieldValue {} accountData accountRecord (accountField "Iban")).toOption =
        some "NL91 ABNA 0417 1643 00" ∧
      ((accounts "Iban").itemValues {} accountData (.record accountRecord) >>= fun values =>
          Loop.renderItem values "[[ACCOUNT_IBAN]]").toOption = some "NL91ABNA0417164300" := by
  decide +kernel

end Collection

end Covenant
