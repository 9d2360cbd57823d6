import Sm83.Text.Numeral

/-! # Labels -/

namespace Sm83

/-- What an address that has a label is taken for. -/
inductive LabelKind where
  /-- An instruction that something jumps to. -/
  | code
  /-- Data that something loads. -/
  | data
  deriving DecidableEq, Repr

/-- What the names of the labels of a kind start with. -/
def LabelKind.stem : LabelKind → String
  | code => ".asm_"
  | data => ".data_"

/-- The name of the label of a kind for an offset. -/
def LabelKind.nameAt (kind : LabelKind) (offset : Nat) : String :=
  kind.stem ++ Text.hex offset

/-- The name of the routine at an offset. -/
def routineName (offset : Nat) : String :=
  "Func_" ++ Text.hex offset

/-- A label for a local address. -/
structure Label where
  kind : LabelKind
  address : Nat
  name : String
  /-- The number of references, counted anew whenever the label is made or silenced. -/
  usage : Nat
  /-- Whether its definition has been passed. -/
  defined : Bool
  deriving DecidableEq, Repr

namespace Label

/-- Whether anything refers to the label. -/
def isUsed (label : Label) : Bool :=
  0 < label.usage

/-- The label with one more reference. -/
def referenced (label : Label) : Label :=
  { label with usage := label.usage + 1 }

/-- The label once its definition has been passed. -/
def passed (label : Label) : Label :=
  { label with defined := true }

/-- The label without its references. -/
def unreferenced (label : Label) : Label :=
  { label with usage := 0 }

/-- The label without its references and in no need of a definition. -/
def silenced (label : Label) : Label :=
  { label with usage := 0, defined := true }

end Label

end Sm83
