import Sm83.Bank
import Sm83.Instruction.Decode
import Sm83.Label.Map
import Sm83.Listing.Line
import Sm83.Names.Basic

/-!
# What a sweep works on and what it leaves

A sweep reads an image from a start onwards and leaves one step for each instruction or byte of
data that it passes.
-/

namespace Sm83

/-- What a sweep is asked to do. -/
structure Options where
  /-- The offset from which on the sweep may end; without one it may end anywhere. -/
  stop : Option Nat := none
  /-- Whether the sweep ends at its stop, wherever control flow goes. -/
  hardStop : Bool := false
  /-- Whether bytes behind a jump or return may be taken for data. -/
  allowData : Bool := false
  deriving DecidableEq, Repr

/-- A sweep over an image from a start. -/
structure Sweep where
  image : ByteArray
  names : Names
  start : Nat
  options : Options

namespace Sweep

/-- The offset behind the last byte that a sweep can read. -/
def ceiling (sweep : Sweep) : Nat :=
  min sweep.image.size Bank.capacity

/-- The byte at an offset below the ceiling. -/
def byte? (sweep : Sweep) (offset : Nat) : Option UInt8 :=
  if offset < sweep.ceiling then sweep.image[offset]? else none

/-- The bank that is mapped during the sweep. -/
def bank (sweep : Sweep) : Nat :=
  Bank.ofOffset sweep.start

/-- The offset at which the sweep is to stop: the last one of its bank, if none is given. -/
def stop (sweep : Sweep) : Nat :=
  sweep.options.stop.getD (Bank.lastOffset sweep.start)

theorem lt_ceiling_of_byte? {sweep : Sweep} {offset : Nat} {value : UInt8}
    (h : sweep.byte? offset = some value) : offset < sweep.ceiling := by
  unfold byte? at h
  split at h
  · assumption
  · cases h

end Sweep

/-- What a sweep passes in one step. -/
inductive Item where
  /-- An instruction, with its operand as the listing refers to it. -/
  | code (instruction : Instruction) (argument : Option Argument)
  /-- A byte of data. -/
  | data (value : UInt8)
  deriving DecidableEq, Repr

namespace Item

/-- The number of bytes of an item. -/
def size : Item → Nat
  | code instruction _ => instruction.size
  | data _ => 1

/-- The byte that an item starts with. -/
def firstByte : Item → UInt8
  | code instruction _ => instruction.opcode
  | data value => value

/-- Whether an item is data. -/
def isData : Item → Bool
  | code _ _ => false
  | data _ => true

/-- The template of a byte of data. -/
def dataTemplate : Template :=
  .around "db " ""

/-- The line of an item. -/
def line : Item → Line
  | code instruction argument => .instruction instruction.template argument
  | data value => .instruction dataTemplate (some (.byte value))

theorem size_pos (item : Item) : 0 < item.size := by
  cases item with
  | code instruction _ => exact instruction.size_pos
  | data _ => exact Nat.one_pos

end Item

/-- One step of a sweep. -/
structure Step where
  offset : Nat
  item : Item
  /-- Whether the definitions of the step stand apart from what comes before. -/
  apartBefore : Bool
  /-- Whether the item stands apart from what comes behind. -/
  apartAfter : Bool
  deriving DecidableEq, Repr

/-- The lines of a step: the definitions at its address and its item. -/
def Step.lines (step : Step) : List Line :=
  let address := Bank.localAddress step.offset
  (if step.apartBefore then [.separator] else []) ++
    [.definition .code address, .definition .data address, step.item.line] ++
    (if step.apartAfter then [.separator] else [])

/-- Where a sweep stands between two steps. -/
structure Cursor where
  offset : Nat
  /-- Whether the next byte is taken for data. -/
  inData : Bool
  labels : LabelMap

end Sm83
