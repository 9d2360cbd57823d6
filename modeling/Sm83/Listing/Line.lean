import Sm83.Bank
import Sm83.Instruction.Template
import Sm83.Label.Map

/-!
# Lines of a listing

Lines refer to labels by kind and address, so that what they show can be settled once all
references are counted: the definition of a label that nothing refers to is not shown, and a
reference to it shows its address.
-/

namespace Sm83

/-- The operand of an instruction as a listing shows it. -/
inductive Argument where
  /-- A byte in two hexadecimal digits. -/
  | byte (value : UInt8)
  /-- An address or word in hexadecimal. -/
  | number (value : Nat)
  /-- The routine at an offset. -/
  | routine (offset : Nat)
  /-- A distance from the instruction, for targets in front of the image. -/
  | relative (distance : Int)
  /-- A name as it stands. -/
  | name (text : String)
  /-- A label. -/
  | label (kind : LabelKind) (address : Nat)
  deriving DecidableEq, Repr

/-- An integer in decimal, always with its sign. -/
def signedText (value : Int) : String :=
  (if value < 0 then "-" else "+") ++ toString value.natAbs

/-- An address as an operand. -/
def addressText (address : Nat) : String :=
  "$" ++ Text.hex address

/-- The text of an operand. -/
def Argument.text (labels : LabelMap) : Argument → String
  | byte value => "$" ++ Text.hexWide 2 value.toNat
  | number value => addressText value
  | routine offset => routineName offset
  | relative distance => "@" ++ signedText distance
  | name text => text
  | label kind address =>
    match (labels.get? kind address).filter Label.isUsed with
    | some found => found.name
    | none => addressText address

/-- A line of a listing. -/
inductive Line where
  /-- The name of the routine that starts at an offset. -/
  | header (offset : Nat)
  /-- A place where an empty line may stand. -/
  | separator
  /-- The definition of a label. -/
  | definition (kind : LabelKind) (address : Nat)
  /-- An instruction or a byte of data. -/
  | instruction (template : Template) (argument : Option Argument)
  deriving DecidableEq, Repr

/-- How a listing is laid out. -/
structure Layout where
  /-- What each instruction starts with. -/
  indent : String := "\t"
  /-- Whether the end is noted in the last line. -/
  showEnd : Bool := true
  deriving DecidableEq, Repr

/-- The text of an instruction. -/
def instructionText (labels : LabelMap) (template : Template) : Option Argument → String
  | none => template.text
  | some argument => template.fill (argument.text labels)

/-- What a line shows, if anything. -/
def Line.text? (labels : LabelMap) (layout : Layout) : Line → Option String
  | header offset => some (routineName offset ++ ":" ++ Bank.remark offset)
  | separator => none
  | definition kind address => ((labels.get? kind address).filter Label.isUsed).map Label.name
  | instruction template argument =>
    some (layout.indent ++ instructionText labels template argument)

end Sm83
