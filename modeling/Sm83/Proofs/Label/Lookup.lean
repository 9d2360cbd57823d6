import Sm83.Label.Map

/-!
# Lookups after each operation on labels

Every operation on a label map is described by the label that `get?` finds afterwards, so that
later arguments about labels never open a map.
-/

namespace Sm83.LabelMap

/-! ## Operations on one label -/

theorem get?_reference (labels : LabelMap) (kind : LabelKind) (address : Nat)
    (kind' : LabelKind) (address' : Nat) :
    (labels.reference kind address).get? kind' address' =
      if kind = kind' ∧ address = address' then (labels.get? kind address).map Label.referenced
      else labels.get? kind' address' :=
  get?_modify labels kind address Label.referenced kind' address'

theorem get?_define (labels : LabelMap) (kind : LabelKind) (address : Nat)
    (kind' : LabelKind) (address' : Nat) :
    (labels.define kind address).get? kind' address' =
      if kind = kind' ∧ address = address' then (labels.get? kind address).map Label.passed
      else labels.get? kind' address' :=
  get?_modify labels kind address Label.passed kind' address'

@[simp]
theorem get?_silence_code (labels : LabelMap) (address address' : Nat) :
    (labels.silence address).get? .code address' = labels.get? .code address' := by
  simp [silence, get?_modify]

theorem get?_silence_data (labels : LabelMap) (address address' : Nat) :
    (labels.silence address).get? .data address' =
      if address = address' then (labels.get? .data address).map Label.silenced
      else labels.get? .data address' := by
  simp [silence, get?_modify]

/-! ## Presence and use -/

theorem contains_eq_false_iff {labels : LabelMap} {kind : LabelKind} {address : Nat} :
    labels.contains kind address = false ↔ labels.get? kind address = none := by
  simp [contains]

theorem contains_of_get? {labels : LabelMap} {kind : LabelKind} {address : Nat} {label : Label}
    (found : labels.get? kind address = some label) : labels.contains kind address = true :=
  contains_iff.mpr ⟨label, found⟩

theorem isUsed_iff {labels : LabelMap} {kind : LabelKind} {address : Nat} :
    labels.isUsed kind address = true ↔
      ∃ label, labels.get? kind address = some label ∧ 0 < label.usage := by
  simp [isUsed, Option.any_eq_true, Label.isUsed]

theorem contains_of_isUsed {labels : LabelMap} {kind : LabelKind} {address : Nat}
    (used : labels.isUsed kind address = true) : labels.contains kind address = true := by
  obtain ⟨label, found, _⟩ := isUsed_iff.mp used
  exact contains_of_get? found

/-! ## Labels in their places -/

/-- Every label is kept under its own kind and address. -/
def Stored (labels : LabelMap) : Prop :=
  ∀ kind address label, labels.get? kind address = some label →
    label.kind = kind ∧ label.address = address

variable {labels : LabelMap}

theorem stored_empty : empty.Stored := by
  intro kind address label found
  simp at found

theorem Stored.insert (stored : labels.Stored) (label : Label) : (labels.insert label).Stored := by
  intro kind address other found
  rw [get?_insert] at found
  split at found
  · next here =>
      cases found
      exact here
  · exact stored kind address other found

theorem Stored.modify (stored : labels.Stored) (kind : LabelKind) (address : Nat)
    {f : Label → Label}
    (keeps : ∀ label, (f label).kind = label.kind ∧ (f label).address = label.address) :
    (labels.modify kind address f).Stored := by
  intro kind' address' label found
  rw [get?_modify] at found
  split at found
  · next here =>
      obtain ⟨rfl, rfl⟩ := here
      obtain ⟨before, foundBefore, rfl⟩ := Option.map_eq_some_iff.mp found
      obtain ⟨sameKind, sameAddress⟩ := stored kind address before foundBefore
      exact ⟨(keeps before).1.trans sameKind, (keeps before).2.trans sameAddress⟩
  · exact stored kind' address' label found

theorem Stored.reference (stored : labels.Stored) (kind : LabelKind) (address : Nat) :
    (labels.reference kind address).Stored :=
  stored.modify kind address fun _ => ⟨rfl, rfl⟩

theorem Stored.define (stored : labels.Stored) (kind : LabelKind) (address : Nat) :
    (labels.define kind address).Stored :=
  stored.modify kind address fun _ => ⟨rfl, rfl⟩

theorem Stored.silence (stored : labels.Stored) (address : Nat) :
    (labels.silence address).Stored :=
  stored.modify .data address fun _ => ⟨rfl, rfl⟩

end Sm83.LabelMap

namespace Sm83.Label

@[simp]
theorem isUsed_silenced (label : Label) : label.silenced.isUsed = false := by
  simp [isUsed, silenced]

end Sm83.Label
