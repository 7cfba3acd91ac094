import Covenant.Proofs.Collection.Variables

/-!
# Loops whose text uses no variable

The variables of an item all begin with the stem of the collection.  So a body in which no name begins
with the stem, in any letter case, is rendered as it is for every item, and rendering it once for all of
them leaves nothing out.  Of upper case only this is needed: it is made character by character, so that
the upper case of a name begins with that of its stem.
-/

namespace Covenant

/-- All names begin with a stem. -/
def Members.HaveStem (stem : Text) (values : Members) : Prop := ∀ pair ∈ values, stem <+: pair.1

theorem Text.upper_prefix {first text : Text} (starts : first <+: text) :
    Text.upper first <+: Text.upper text := by
  obtain ⟨rest, rfl⟩ := starts
  rw [Text.upper_append]
  exact List.prefix_append _ _

/-! ### The names of variables -/

namespace Collection

variable {settings : Settings} {data : CaseData} {stem : Text} {values : Members}

theorem haveStem_recordValues {fields : List ItemField} {record : Members}
    (written : recordValues settings stem data fields record = .ok values) : values.HaveStem stem := by
  intro pair isPair
  rcases mem_recordValues written isPair with ⟨field, -, wording, -, rfl⟩ | ⟨key, stored, -, rfl⟩
  · exact List.prefix_append stem field.name
  · exact List.prefix_append stem _

theorem haveStem_childValues {child : Child} (written : childValues stem data child = .ok values) :
    values.HaveStem stem := by
  obtain ⟨callName, -, written⟩ := Outcome.bind_eq_ok_iff.mp written
  obtain ⟨surname, -, written⟩ := Outcome.bind_eq_ok_iff.mp written
  obtain ⟨fullName, -, written⟩ := Outcome.bind_eq_ok_iff.mp written
  obtain rfl := Except.ok.inj written
  simp [Members.HaveStem]

/-- The variables of an item begin with the stem of the collection. -/
theorem haveStem_itemValues {collection : Collection} {item : Item}
    (written : collection.itemValues settings data item = .ok values) :
    values.HaveStem collection.stem := by
  unfold itemValues at written
  split at written
  · exact haveStem_childValues written
  · exact haveStem_recordValues written
  · exact haveStem_recordValues written

end Collection

/-! ### Bodies without variables -/

namespace Loop

variable {stem body : Text} {values : Members}

theorem valueOf?_of_otherStem (haveStem : values.HaveStem stem) {name : Text}
    (otherStem : ¬ Text.upper stem <+: Text.upper name) : valueOf? values name = none := by
  rw [valueOf?, Option.map_eq_none_iff, List.find?_eq_none]
  intro pair member same
  apply otherStem
  rw [← of_decide_eq_true same]
  exact Text.upper_prefix (haveStem pair (List.mem_reverse.mp member))

/-- A piece of a body without variables becomes what it is written as. -/
theorem pieceValue_of_unused (haveStem : values.HaveStem stem) (unused : usesStem stem body = false)
    {piece : Piece Text} (isPiece : piece ∈ pieces body) :
    pieceValue values piece = .ok (.text piece.source) := by
  have own := List.any_eq_false.mp unused piece isPiece
  cases piece with
  | plain c => rfl
  | token content source =>
      have absent : valueOf? values (Modifier.split content).2 = none :=
        valueOf?_of_otherStem haveStem (by simpa [List.isPrefixOf_iff_prefix] using own)
      simp only [pieceValue, absent]
      rfl

theorem renderItem_of_haveStem (haveStem : values.HaveStem stem) (unused : usesStem stem body = false) :
    renderItem values body = .ok body := by
  have become : List.Forall₂ (fun piece content => pieceValue values piece = .ok (.text content))
      (pieces body) ((pieces body).map Piece.source) := by
    rw [List.forall₂_map_right_iff, List.forall₂_same]
    exact fun piece isPiece => pieceValue_of_unused haveStem unused isPiece
  have whole : ((pieces body).map Piece.source).flatten = body := by
    rw [← List.flatMap_def]
    exact Piece.flatMap_source_cut body
  rw [renderItem_of_texts become, whole]

/-- A block with a body without variables shows what each single item would show, trimmed. -/
theorem render_eq_trim_renderFor {source : Source} {name : Text} {collection : Collection}
    {items : List Item} (found : source.registry.find? name = some collection)
    (listed : collection.items source.settings source.data source.surroundings = .ok items)
    (unused : usesStem collection.stem body = false) {item : Item} (member : item ∈ items)
    (returns : Outcome.Returns (collection.itemValues source.settings source.data item)) :
    render source name body = (renderFor source collection body item).map Text.trim := by
  obtain ⟨values, written⟩ := returns
  have filled : items.isEmpty = false := by
    cases items with
    | nil => cases member
    | cons _ _ => rfl
  have own : renderFor source collection body item = .ok body := by
    rw [renderFor, written]
    exact renderItem_of_haveStem (Collection.haveStem_itemValues written) unused
  rw [(goesThrough_of_listed found listed).guarded body unused, own, filled]
  rfl

/-- **A body that uses no variable of a collection is rendered as it is** for every item whose variables
can be written. -/
theorem renderItem_of_unused {settings : Settings} {data : CaseData} {collection : Collection}
    {item : Item} (written : collection.itemValues settings data item = .ok values)
    (unused : usesStem collection.stem body = false) : renderItem values body = .ok body :=
  renderItem_of_haveStem (Collection.haveStem_itemValues written) unused

/-- Names that come close to variables of an account: the stem is cut short, follows a modifier that is
none, or stands behind other letters. -/
def accountNames : Text :=
  "[[ACCOUNT]] [[caps: Account]] [[small: account_iban]] [[MY_ACCOUNT_IBAN]] [[ upper:ACCOUNT-IBAN ]]"

theorem renderItem_of_unused_accountNames :
    ∃ values, (Collection.accounts "IBAN").itemValues {} Collection.accountData
        (.record Collection.accountRecord) = .ok values ∧
      usesStem (Collection.accounts "IBAN").stem accountNames = false ∧
      renderItem values accountNames = .ok accountNames := by
  obtain ⟨values, written⟩ : ∃ values, (Collection.accounts "IBAN").itemValues {} Collection.accountData
      (.record Collection.accountRecord) = .ok values := ⟨_, rfl⟩
  have unused : usesStem (Collection.accounts "IBAN").stem accountNames = false := by decide +kernel
  exact ⟨values, written, unused, renderItem_of_unused written unused⟩

end Loop

end Covenant
