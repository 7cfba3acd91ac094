import Covenant.Collection.Basic

/-!
# The registry of collections

Collections are registered under their names in capitals.  A collection with a
name already taken replaces the other in its place; otherwise the order of
registration stays, and it decides which collection's grammar comes first.
-/

namespace Covenant

structure Registry where
  collections : List (Text × Collection) := []

namespace Registry

def place (key : Text) (collection : Collection) : List (Text × Collection) → List (Text × Collection)
  | [] => [(key, collection)]
  | (other, old) :: rest =>
      if other = key then (key, collection) :: rest else (other, old) :: place key collection rest

def register (registry : Registry) (collection : Collection) : Registry :=
  ⟨place (Text.upper collection.name) collection registry.collections⟩

def find? (registry : Registry) (name : Text) : Option Collection :=
  registry.collections.lookup (Text.upper (Text.trim name))

def contains (registry : Registry) (name : Text) : Bool := (registry.find? name).isSome

def toList (registry : Registry) : List Collection := registry.collections.map (·.2)

def size (registry : Registry) : Nat := registry.collections.length

def ofList (collections : List Collection) : Registry := collections.foldl register {}

def childStem : Text := "KIND_"

def accountPairs : List GrammarPair := [
  ⟨"bankrekening", "bankrekeningen"⟩, ⟨"de bankrekening", "de bankrekeningen"⟩,
  ⟨"saldo", "saldi"⟩, ⟨"het saldo", "de saldi"⟩, ⟨"valt", "vallen"⟩, ⟨"staat", "staan"⟩,
  ⟨"rekening blijft", "rekeningen blijven"⟩, ⟨"rekening zal", "rekeningen zullen"⟩]

def childAccountPairs : List GrammarPair :=
  accountPairs.take 4 ++ ⟨"rekeningnummer", "rekeningnummers"⟩ :: accountPairs.drop 4

def accountFields : List ItemField := [
  { name := "IBAN", source := "iban", kind := .accountNumber },
  { name := "TENAAMSTELLING", source := "tenaamstelling", kind := .party },
  { name := "BANKNAAM", source := "bankNaam", kind := .bank },
  { name := "SALDO", source := "saldo", kind := .currency },
  { name := "STATUS", source := "statusVermogen", kind := .code }]

def kindField : ItemField := { name := "SOORT", source := "soort", kind := .code }

def holderField : ItemField :=
  { name := "TENAAMSTELLING", source := "tenaamstelling", kind := .party }

def statusField : ItemField := { name := "STATUS", source := "statusVermogen", kind := .code }

def descriptionField : ItemField := { name := "OMSCHRIJVING", source := "omschrijving" }

def sumField : ItemField := { name := "BEDRAG", source := "bedrag", kind := .currency }

def childCollection (name : Text) (selection : ChildSelection) : Collection :=
  { name, stem := childStem, source := .children selection }

def recordCollection (name stem : Text) (fields : List ItemField) (grammarPairs : List GrammarPair)
    (otherNames : List Text) : Collection :=
  { name, stem, source := .records fields otherNames, grammarPairs }

def usual : Registry := ofList [
  childCollection "KINDEREN_UIT_HUWELIJK" .fromMarriage,
  childCollection "KINDEREN_VOOR_HUWELIJK" .beforeMarriage,
  childCollection "MINDERJARIGE_KINDEREN" .minor,
  childCollection "ALLE_KINDEREN" .all,
  recordCollection "BANKREKENINGEN_KINDEREN" "BANKREKENING_" accountFields childAccountPairs
    ["bankrekening_kinderen", "bankrekeningKinderen"],
  recordCollection "BANKREKENINGEN" "BANKREKENING_" accountFields accountPairs [],
  recordCollection "BELEGGINGEN" "BELEGGING_"
    [kindField, { name := "INSTITUUT", source := "instituut", kind := .code }, holderField,
      statusField]
    [⟨"belegging", "beleggingen"⟩, ⟨"de belegging", "de beleggingen"⟩] [],
  recordCollection "VOERTUIGEN" "VOERTUIG_"
    [kindField, { name := "KENTEKEN", source := "kenteken" },
      { name := "MERK", source := "merk" }, { name := "MODEL", source := "handelsbenaming" },
      holderField, statusField]
    [⟨"voertuig", "voertuigen"⟩, ⟨"het voertuig", "de voertuigen"⟩] [],
  recordCollection "VERZEKERINGEN" "VERZEKERING_"
    [kindField,
      { name := "MAATSCHAPPIJ", source := "verzekeringsmaatschappij", kind := .code },
      { name := "NEMER", source := "verzekeringnemer", kind := .party }, statusField]
    [⟨"verzekering", "verzekeringen"⟩, ⟨"de verzekering", "de verzekeringen"⟩,
      ⟨"polis", "polissen"⟩, ⟨"de polis", "de polissen"⟩] [],
  recordCollection "SCHULDEN" "SCHULD_"
    [kindField, descriptionField, sumField, holderField,
      { name := "DRAAGPLICHTIG", source := "draagplichtig", kind := .debtor }, statusField]
    [⟨"schuld", "schulden"⟩, ⟨"de schuld", "de schulden"⟩] [],
  recordCollection "VORDERINGEN" "VORDERING_"
    [kindField, descriptionField, sumField, holderField, statusField]
    [⟨"vordering", "vorderingen"⟩, ⟨"de vordering", "de vorderingen"⟩] [],
  recordCollection "PENSIOENEN" "PENSIOEN_"
    [{ name := "MAATSCHAPPIJ", source := "pensioenmaatschappij", kind := .code }, holderField,
      { name := "VERDELING", source := "verdeling", kind := .code },
      { name := "BIJZONDER_PARTNERPENSIOEN", source := "bijzonderPartnerpensioen", kind := .code,
        otherCode := "afwijken", otherSource := "bijzonderPartnerpensioensAnders" }]
    [⟨"pensioen", "pensioenen"⟩, ⟨"het pensioen", "de pensioenen"⟩] []]

end Registry

end Covenant
