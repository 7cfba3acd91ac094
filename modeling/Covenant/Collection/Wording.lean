import Covenant.Case.Basic
import Covenant.Settings
import Covenant.Wording.Agreement
import Covenant.Wording.Amount
import Covenant.Wording.Calendar

/-!
# The wording of stored values

The fields of stored records hold codes, references to parties, account numbers,
amounts and dates.  Each kind has its own wording; a reference to a party or a
child becomes the full name, and an unknown reference stays as it is.
-/

namespace Covenant

inductive FieldKind where
  | plain
  | code
  | party
  | debtor
  | bank
  | accountNumber
  | currency
  | date
deriving DecidableEq

namespace FieldKind

def names : List (Text × FieldKind) := [
  ("code", code), ("party", party), ("debtor", debtor), ("bank", bank), ("iban", accountNumber),
  ("currency", currency), ("date", date)]

/-- The kind with a name; any other name stands for plain text. -/
def ofName (name : Text) : FieldKind := (names.lookup name).getD plain

end FieldKind

namespace PartyReference

def firstParty : List Text := ["partij1", "partij_1", "ouder_1", "ouder1"]

def secondParty : List Text := ["partij2", "partij_2", "ouder_2", "ouder2"]

def bothParties : List Text := ["gezamenlijk", "ouders_gezamenlijk", "beiden", "beide"]

def bothLabel : Text := "beide partijen"

/-- The digits of a reference to a child by its number. -/
def childDigits? (reference : Text) : Option Text :=
  if ("kind_" : Text).isPrefixOf reference then
    let digits := reference.drop 5
    if !digits.isEmpty && digits.all isDigit then some digits else none
  else none

def childNames (children : List Child) : Outcome Text :=
  (children.mapM Child.fullName).map Wording.enumeration

/-- The child that a number refers to, by name; the reference itself when there is none. -/
def childLabel (data : CaseData) (digits reference : Text) : Outcome Text := do
  let number ← Value.integerOfText digits
  match data.children.find? fun child => child.id = some number with
  | some child => child.fullName
  | none => return reference

def label (settings : Settings) (data : CaseData) (reference : Value) : Outcome Text :=
  if reference.isNull then .ok []
  else
    let reference := Text.trim reference.plain
    let word := Text.lower reference
    match firstParty.contains word, data.parties with
    | true, party :: _ => party.fullName
    | _, _ => match secondParty.contains word, data.parties with
      | true, _ :: party :: _ => party.fullName
      | _, _ =>
          if bothParties.contains word then .ok bothLabel
          else match childDigits? word with
            | some digits => childLabel data digits reference
            | none =>
                if word = "kinderen_alle" then childNames (data.minors settings.maturityAge)
                else if word = "kinderen_allemaal" then childNames data.children
                else .ok reference

end PartyReference

namespace FieldKind

/-- The debtor of a debt; one that is to be paid off has none. -/
def debtorLabel (settings : Settings) (data : CaseData) (value : Value) : Outcome Text :=
  if Text.lower (Text.trim value.plain) = "aflossen" then .ok "af te lossen"
  else PartyReference.label settings data value

def bankName (name : Text) : Text :=
  let name := Text.trim name
  if name.isEmpty then [] else "de " ++ name

def write (settings : Settings) (data : CaseData) (kind : FieldKind) (value : Value) : Outcome Text :=
  if value.isNull then .ok []
  else match kind with
    | plain => .ok value.plain
    | code => .ok (Wording.code value.plain)
    | party => PartyReference.label settings data value
    | debtor => debtorLabel settings data value
    | bank => .ok (bankName value.plain)
    | accountNumber => .ok (Wording.accountNumber value.plain)
    | currency => Wording.amount value
    | date => .ok (Wording.date? (Date.ofValue? data.today value))

end FieldKind

end Covenant
