import Sm83.Proofs.Listing.Rows
import Sm83.Proofs.Sweep.DataLabels
import Sm83.Proofs.Text.Numeral

/-!
# Definitions in a listing

At the address of an item at most one label is defined, and its name stands directly above the item.
The name tells of which kind the label is and which offset it was made for.
-/

namespace Sm83

/-! ## Names tell labels apart -/

theorem LabelKind.stem_append_injective {kind kind' : LabelKind} {text text' : String}
    (same : kind.stem ++ text = kind'.stem ++ text') : kind = kind' ∧ text = text' := by
  cases kind <;> cases kind'
  case code.code | data.data => exact ⟨rfl, (String.append_right_inj _).mp same⟩
  case code.data | data.code =>
    have characters := congrArg String.toList same
    simp [stem] at characters

theorem LabelKind.nameAt_injective {kind kind' : LabelKind} {offset offset' : Nat}
    (same : kind.nameAt offset = kind'.nameAt offset') : kind = kind' ∧ offset = offset' := by
  obtain ⟨sameKind, sameNumeral⟩ := stem_append_injective same
  exact ⟨sameKind, Text.hex_injective sameNumeral⟩

theorem LabelKind.nameAt_ne_addressText (kind : LabelKind) (offset address : Nat) :
    kind.nameAt offset ≠ addressText address := by
  intro same
  have characters := congrArg String.toList same
  cases kind <;> simp [nameAt, stem, addressText] at characters

/-! ## Which definitions are shown -/

namespace Sweep

variable {sweep : Sweep} {steps : List Step} {cursor : Cursor} {ended : Bool} {kind : LabelKind}
  {address : Nat} {name : String}

theorem Reaches.definitions_eq_singleton (reached : sweep.Reaches steps cursor ended)
    (defined : cursor.labels.definition? kind address = some name) :
    (cursor.labels.definition? .code address).toList ++
      (cursor.labels.definition? .data address).toList = [name] := by
  cases shown : cursor.labels.definition? .code address with
  | some other =>
      obtain ⟨label, found, used, _⟩ := LabelMap.definition?_eq_some_iff.mp shown
      have hidden : cursor.labels.definition? .data address = none := by
        apply LabelMap.definition?_eq_none_iff.mpr
        exact reached.not_both_used (by simp [LabelMap.isUsed, found, used])
      cases kind with
      | code => simpa [hidden, shown] using defined
      | data => rw [hidden] at defined; cases defined
  | none =>
      cases kind with
      | code => rw [shown] at defined; cases defined
      | data => simp [defined]

theorem Reaches.name_of_get? (reached : sweep.Reaches steps cursor ended) {label : Label}
    (found : cursor.labels.get? kind address = some label) :
    ∃ origin, Bank.localAddress origin = address ∧ label.name = kind.nameAt origin := by
  cases kind with
  | code =>
      obtain ⟨_, _, origin, _, _, there, named⟩ := reached.origin found
      exact ⟨origin, there, named⟩
  | data => exact reached.dataNamed address label found

theorem Reaches.name_of_definition? (reached : sweep.Reaches steps cursor ended)
    (defined : cursor.labels.definition? kind address = some name) :
    ∃ origin, Bank.localAddress origin = address ∧ name = kind.nameAt origin := by
  obtain ⟨label, found, _, rfl⟩ := LabelMap.definition?_eq_some_iff.mp defined
  exact reached.name_of_get? found

end Sweep

/-! ## Definitions of a listing -/

/-- A row of a listing defines a name: a label at the address of an item shows it, and it stands
directly above the item. -/
def Listing.Defines (listing : Listing) (layout : Layout) (name : String) : Prop :=
  ∃ landing ∈ listing.steps.toList, ∃ kind,
    listing.labels.definition? kind (Bank.localAddress landing.offset) = some name ∧
      listing.PrintsAt layout landing.offset [name] (landing.item.text listing.labels layout)

theorem Listing.defines_of_visited {sweep : Sweep} {listing : Listing} {inData : Bool}
    (layout : Layout) (reached : sweep.Reaches listing.steps.toList
      ⟨listing.endOffset, inData, listing.labels⟩ true)
    {kind : LabelKind} {address : Nat} {name : String}
    (defined : listing.labels.definition? kind address = some name)
    (visited : Visited listing.steps.toList address) : listing.Defines layout name := by
  obtain ⟨landing, passed, rfl⟩ := visited
  exact ⟨landing, passed, kind, defined,
    listing.printsAt_definition layout passed (reached.definitions_eq_singleton defined)⟩

theorem Listing.visited_of_defines {sweep : Sweep} {listing : Listing} {inData : Bool}
    {layout : Layout} (reached : sweep.Reaches listing.steps.toList
      ⟨listing.endOffset, inData, listing.labels⟩ true)
    {kind : LabelKind} {address : Nat} {name : String}
    (shown : listing.labels.definition? kind address = some name)
    (defines : listing.Defines layout name) : Visited listing.steps.toList address := by
  obtain ⟨landing, passed, kind', defined, _⟩ := defines
  obtain ⟨origin, there, named⟩ := reached.name_of_definition? shown
  obtain ⟨origin', there', named'⟩ := reached.name_of_definition? defined
  obtain ⟨_, same⟩ := LabelKind.nameAt_injective (named.symm.trans named')
  exact ⟨landing, passed, by rw [← there, same, there']⟩

end Sm83
