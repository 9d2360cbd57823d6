import Sm83.Sweep.Basic

/-!
# References to labels

How the operand of an instruction refers to an address, and what that does to the labels.
-/

namespace Sm83.Sweep

/-- The code label that a jump to an offset asks for before the offset is reached. -/
def jumpLabel (offset : Nat) : Label :=
  { kind := .code
    address := Bank.localAddress offset
    name := LabelKind.code.nameAt offset
    usage := 1
    defined := false }

/-- The offset of the instruction behind a relative jump, moved by the distance of the jump. -/
def jumpTarget (offset : Nat) (distance : Int) : Int :=
  offset + 2 + distance

/-- Refers to the target of a relative jump. Targets in front of the image are given by their
distance, targets in front of the start as routines, and all others as code labels, which take the
address from the data label there. -/
def referJump (sweep : Sweep) (labels : LabelMap) (offset : Nat) (distance : Int) :
    Argument × LabelMap :=
  match jumpTarget offset distance with
  | .negSucc _ => (.relative (2 + distance), labels)
  | .ofNat target =>
    let address := Bank.localAddress target
    if labels.contains .code address then
      (.label .code address, (labels.reference .code address).silence address)
    else if target < sweep.start then
      (.routine target, labels.silence address)
    else
      (.label .code address, (labels.insert (jumpLabel target)).silence address)

/-- A data label that nothing refers to yet. -/
def dataLabel (address offset : Nat) (defined : Bool) : Label :=
  { kind := .data
    address := address
    name := LabelKind.data.nameAt offset
    usage := 0
    defined := defined }

/-- Takes the references from the data label for an address that a code label already explains;
where there is none, enters one that needs no definition. -/
def yieldToCode (labels : LabelMap) (address offset : Nat) : LabelMap :=
  if labels.contains .data address then labels.modify .data address Label.unreferenced
  else labels.insert (dataLabel address offset true)

/-- Counts a reference to the data label for an address; where there is none, enters one. -/
def referData (labels : LabelMap) (address offset : Nat) : LabelMap :=
  if labels.contains .data address then labels.reference .data address
  else labels.insert (dataLabel address offset false)

/-- The name of a word as an address. Bank zero shows bank one in the window. -/
def wordName? (sweep : Sweep) (word : Nat) : Option String :=
  sweep.names.at? word (max sweep.bank 1)

/-- Refers to the word behind an opcode. Calls and jumps go to routines. Any other word is an
address that a code label explains, an address of data, or a number. -/
def referWord (sweep : Sweep) (labels : LabelMap) (opcode : UInt8) (word : Nat) :
    Argument × LabelMap :=
  let offset := Bank.flatOffset word sweep.bank
  match sweep.wordName? word with
  | some name => (.name name, labels)
  | none =>
    if Opcode.isCall opcode || Opcode.isJump opcode then (.routine offset, labels)
    else if labels.isUsed .code word then (.label .code word, yieldToCode labels word offset)
    else if Bank.windowEnd ≤ word || !sweep.options.allowData then (.number word, labels)
    else (.label .data word, referData labels word offset)

/-- Refers to what the operand of an instruction is about. -/
def refer (sweep : Sweep) (labels : LabelMap) (offset : Nat) (instruction : Instruction) :
    Option Argument × LabelMap :=
  match instruction.operand with
  | .none => (none, labels)
  | .byte value => (some (.byte value), labels)
  | .high address =>
    match sweep.names.at? address sweep.bank with
    | some name => (some (.name name), labels)
    | none => (some (.number address), labels)
  | .distance distance =>
    let (argument, labels) := sweep.referJump labels offset distance
    (some argument, labels)
  | .word word =>
    let (argument, labels) := sweep.referWord labels instruction.opcode word
    (some argument, labels)

end Sm83.Sweep
