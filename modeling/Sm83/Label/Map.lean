import Std.Data.ExtTreeMap
import Sm83.Label.Basic

/-!
# The labels of one run

There is at most one label of each kind for an address. Every operation is described by what
`get?` answers after it.
-/

namespace Sm83

/-- Labels by kind and local address. -/
structure LabelMap where
  code : Std.ExtTreeMap Nat Label := ∅
  data : Std.ExtTreeMap Nat Label := ∅

namespace LabelMap

/-- No labels. -/
def empty : LabelMap := {}

/-- The labels of one kind. -/
def ofKind (labels : LabelMap) : LabelKind → Std.ExtTreeMap Nat Label
  | .code => labels.code
  | .data => labels.data

/-- Changes the labels of one kind. -/
def updateKind (labels : LabelMap) (kind : LabelKind)
    (f : Std.ExtTreeMap Nat Label → Std.ExtTreeMap Nat Label) : LabelMap :=
  match kind with
  | .code => { labels with code := f labels.code }
  | .data => { labels with data := f labels.data }

/-- The label of a kind for an address. -/
def get? (labels : LabelMap) (kind : LabelKind) (address : Nat) : Option Label :=
  (labels.ofKind kind)[address]?

/-- Whether there is a label of a kind for an address. -/
def contains (labels : LabelMap) (kind : LabelKind) (address : Nat) : Bool :=
  (labels.get? kind address).isSome

/-- Whether there is a label of a kind for an address and something refers to it. -/
def isUsed (labels : LabelMap) (kind : LabelKind) (address : Nat) : Bool :=
  (labels.get? kind address).any Label.isUsed

/-- Enters a label, in place of the one of its kind for its address. -/
def insert (labels : LabelMap) (label : Label) : LabelMap :=
  labels.updateKind label.kind (·.insert label.address label)

/-- Changes the label of a kind for an address, if there is one. -/
def modify (labels : LabelMap) (kind : LabelKind) (address : Nat) (f : Label → Label) :
    LabelMap :=
  labels.updateKind kind (·.modify address f)

/-- Counts one more reference to a label. -/
def reference (labels : LabelMap) (kind : LabelKind) (address : Nat) : LabelMap :=
  labels.modify kind address Label.referenced

/-- Notes that the definition of a label has been passed. -/
def define (labels : LabelMap) (kind : LabelKind) (address : Nat) : LabelMap :=
  labels.modify kind address Label.passed

/-- Takes its meaning from the data label for an address. -/
def silence (labels : LabelMap) (address : Nat) : LabelMap :=
  labels.modify .data address Label.silenced

/-- Whether the definition of every label of a kind has been passed. -/
def allDefined (labels : LabelMap) (kind : LabelKind) : Bool := Id.run do
  for (_, label) in labels.ofKind kind do
    if !label.defined then return false
  return true

/-- The labels of a kind, by ascending address. -/
def toList (labels : LabelMap) (kind : LabelKind) : List Label :=
  (labels.ofKind kind).values

/-- The number of labels. -/
def size (labels : LabelMap) : Nat :=
  labels.code.size + labels.data.size

/-! ## What each operation does to the labels -/

@[simp]
theorem get?_empty (kind : LabelKind) (address : Nat) : empty.get? kind address = none := by
  cases kind <;> simp [empty, get?, ofKind]

theorem get?_insert (labels : LabelMap) (label : Label) (kind : LabelKind) (address : Nat) :
    (labels.insert label).get? kind address =
      if label.kind = kind ∧ label.address = address then some label
      else labels.get? kind address := by
  unfold insert updateKind get? ofKind
  cases hk : label.kind <;> cases kind <;> simp [Std.ExtTreeMap.getElem?_insert]

theorem get?_modify (labels : LabelMap) (kind : LabelKind) (address : Nat) (f : Label → Label)
    (kind' : LabelKind) (address' : Nat) :
    (labels.modify kind address f).get? kind' address' =
      if kind = kind' ∧ address = address' then (labels.get? kind address).map f
      else labels.get? kind' address' := by
  unfold modify updateKind get? ofKind
  cases kind <;> cases kind' <;> simp [Std.ExtTreeMap.getElem?_modify]

theorem contains_iff {labels : LabelMap} {kind : LabelKind} {address : Nat} :
    labels.contains kind address = true ↔ ∃ label, labels.get? kind address = some label := by
  simp [contains, Option.isSome_iff_exists]

theorem allDefined_iff {labels : LabelMap} {kind : LabelKind} :
    labels.allDefined kind = true ↔
      ∀ address label, labels.get? kind address = some label → label.defined = true := by
  have scan (entries : List (Nat × Label)) :
      (Id.run do
        for (_, label) in entries do
          if !label.defined then return false
        return true) = entries.all fun entry => entry.2.defined := by
    induction entries with
    | nil => rfl
    | cons entry entries ih => cases h : entry.2.defined <;> simp_all
  unfold allDefined
  rw [Std.ExtTreeMap.forIn_eq_forIn_toList]
  refine (Bool.eq_iff_iff.1 (scan _)).trans ?_
  simp only [List.all_eq_true, Prod.forall, Std.ExtTreeMap.mem_toList_iff_getElem?_eq_some, get?]

end LabelMap

end Sm83
