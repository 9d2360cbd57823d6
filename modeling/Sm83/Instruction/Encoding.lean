import Sm83.Instruction.Template
import Sm83.Text.Numeral

/-!
# Encodings of the SM83 instructions

An opcode is read as three octal digits. The second quarter of the opcodes moves bytes between
registers, the third computes with the accumulator, and the first and the last are listed column
by column. Opcodes that the processor does not know stand for themselves as one byte of data.
-/

namespace Sm83

/-- What follows an opcode. -/
inductive OperandKind where
  /-- Nothing. -/
  | none
  /-- A byte. -/
  | byte
  /-- The signed distance of a relative jump. -/
  | distance
  /-- The low byte of an address in `$ff00-$ffff`. -/
  | highByte
  /-- An opcode of the extended set. -/
  | extended
  /-- A word, low byte first. -/
  | word
  deriving DecidableEq, Repr

/-- The number of bytes of an operand. -/
def OperandKind.size : OperandKind → Nat
  | none => 0
  | byte | distance | highByte | extended => 1
  | word => 2

/-- How an instruction is written and what follows its opcode. -/
structure Encoding where
  template : Template
  operand : OperandKind
  deriving DecidableEq, Repr

namespace Encoding

/-- The number of bytes of the whole instruction. -/
def size (encoding : Encoding) : Nat :=
  1 + encoding.operand.size

/-- An instruction without operand bytes. -/
def bare (text : String) : Encoding :=
  ⟨.fixed text, .none⟩

/-- An instruction with a byte behind its opcode. -/
def withByte (head tail : String) : Encoding :=
  ⟨.around head tail, .byte⟩

/-- A relative jump. -/
def withDistance (head : String) : Encoding :=
  ⟨.around head "", .distance⟩

/-- An access to high memory. -/
def withHighByte (head tail : String) : Encoding :=
  ⟨.around head tail, .highByte⟩

/-- An instruction with a word behind its opcode. -/
def withWord (head tail : String) : Encoding :=
  ⟨.around head tail, .word⟩

/-- The bytes that the processor can compute with, by the last octal digit. -/
def place : Nat → String
  | 0 => "b"
  | 1 => "c"
  | 2 => "d"
  | 3 => "e"
  | 4 => "h"
  | 5 => "l"
  | 6 => "[hl]"
  | _ => "a"

/-- The pairs of registers, by half the middle octal digit. -/
def pair : Nat → String
  | 0 => "bc"
  | 1 => "de"
  | 2 => "hl"
  | _ => "sp"

/-- The pairs of registers that go on the stack, by half the middle octal digit. -/
def stackPair : Nat → String
  | 0 => "bc"
  | 1 => "de"
  | 2 => "hl"
  | _ => "af"

/-- The conditions of jumps, calls and returns. -/
def condition : Nat → String
  | 0 => "nz"
  | 1 => "z"
  | 2 => "nc"
  | _ => "c"

/-- The operations on the accumulator, by the middle octal digit. -/
def operation : Nat → String
  | 0 => "add "
  | 1 => "adc "
  | 2 => "sub "
  | 3 => "sbc "
  | 4 => "and "
  | 5 => "xor "
  | 6 => "or "
  | _ => "cp "

/-- The memory that the accumulator is exchanged with through a pair of registers. -/
def pointed : Nat → String
  | 0 => "[bc]"
  | 1 => "[de]"
  | 2 => "[hli]"
  | _ => "[hld]"

/-- The operations on the accumulator and the flags alone. -/
def accumulatorOnly : Nat → String
  | 0 => "rlca"
  | 1 => "rrca"
  | 2 => "rla"
  | 3 => "rra"
  | 4 => "daa"
  | 5 => "cpl"
  | 6 => "scf"
  | _ => "ccf"

/-- A byte that is no instruction. -/
def unknown (opcode : Nat) : Encoding :=
  bare ("db $" ++ Text.hexWide 2 opcode)

/-- The opcodes `00` to `3f`, by their two lower octal digits. -/
def firstQuarter (y z : Nat) : Encoding :=
  match z with
  | 0 => match y with
    | 0 => bare "nop"
    | 1 => withWord "ld [" "], sp"
    | 2 => unknown 0x10
    | 3 => withDistance "jr "
    | _ => withDistance ("jr " ++ condition (y - 4) ++ ", ")
  | 1 => if y % 2 = 0 then withWord ("ld " ++ pair (y / 2) ++ ", ") ""
    else bare ("add hl, " ++ pair (y / 2))
  | 2 => if y % 2 = 0 then bare ("ld " ++ pointed (y / 2) ++ ", a")
    else bare ("ld a, " ++ pointed (y / 2))
  | 3 => bare ((if y % 2 = 0 then "inc " else "dec ") ++ pair (y / 2))
  | 4 => bare ("inc " ++ place y)
  | 5 => bare ("dec " ++ place y)
  | 6 => withByte ("ld " ++ place y ++ ", ") ""
  | _ => bare (accumulatorOnly y)

/-- The opcodes `c0` to `ff`, by their two lower octal digits. -/
def lastQuarter (y z : Nat) : Encoding :=
  match z with
  | 0 => match y with
    | 4 => withHighByte "ld [" "], a"
    | 5 => withByte "add sp, " ""
    | 6 => withHighByte "ld a, [" "]"
    | 7 => withByte "ld hl, sp+" ""
    | _ => bare ("ret " ++ condition y)
  | 1 => if y % 2 = 0 then bare ("pop " ++ stackPair (y / 2)) else match y with
    | 1 => bare "ret"
    | 3 => bare "reti"
    | 5 => bare "jp [hl]"
    | _ => bare "ld sp, hl"
  | 2 => match y with
    | 4 => bare "ld [$ff00+c], a"
    | 5 => withWord "ld [" "], a"
    | 6 => bare "ld a, [$ff00+c]"
    | 7 => withWord "ld a, [" "]"
    | _ => withWord ("jp " ++ condition y ++ ", ") ""
  | 3 => match y with
    | 0 => withWord "jp " ""
    | 1 => ⟨.around "" "", .extended⟩
    | 6 => bare "di"
    | 7 => bare "ei"
    | _ => unknown (0xc3 + 8 * y)
  | 4 => if y < 4 then withWord ("call " ++ condition y ++ ", ") "" else unknown (0xc4 + 8 * y)
  | 5 => if y % 2 = 0 then bare ("push " ++ stackPair (y / 2))
    else if y = 1 then withWord "call " "" else unknown (0xc5 + 8 * y)
  | 6 => withByte (operation y) ""
  | _ => bare ("rst $" ++ Text.hex (8 * y))

/-- The encoding behind an opcode. -/
def ofOpcode (opcode : UInt8) : Encoding :=
  let y := opcode.toNat / 8 % 8
  let z := opcode.toNat % 8
  match opcode.toNat / 64 with
  | 0 => firstQuarter y z
  | 1 => if y = 6 ∧ z = 6 then bare "halt" else bare ("ld " ++ place y ++ ", " ++ place z)
  | 2 => bare (operation y ++ place z)
  | _ => lastQuarter y z

/-- The rotations and shifts of the extended set, by the middle octal digit. -/
def rotation : Nat → String
  | 0 => "rlc "
  | 1 => "rrc "
  | 2 => "rl "
  | 3 => "rr "
  | 4 => "sla "
  | 5 => "sra "
  | 6 => "swap "
  | _ => "srl "

/-- The text of an instruction of the extended set. -/
def extendedText (opcode : UInt8) : String :=
  let y := opcode.toNat / 8 % 8
  let z := opcode.toNat % 8
  match opcode.toNat / 64 with
  | 0 => rotation y ++ place z
  | 1 => "bit " ++ Text.hex y ++ ", " ++ place z
  | 2 => "res " ++ Text.hex y ++ ", " ++ place z
  | _ => "set " ++ Text.hex y ++ ", " ++ place z

end Encoding

/-! ## Classes of opcodes -/

namespace Opcode

/-- The byte that leads to the extended set. -/
def escape : UInt8 := 0xcb

/-- Calls, with or without a condition. -/
def isCall (opcode : UInt8) : Bool :=
  opcode == 0xcd || opcode == 0xc4 || opcode == 0xcc || opcode == 0xd4 || opcode == 0xdc

/-- Jumps to a word, with or without a condition. -/
def isJump (opcode : UInt8) : Bool :=
  opcode == 0xc3 || opcode == 0xc2 || opcode == 0xca || opcode == 0xd2 || opcode == 0xda

/-- Jumps and returns without a condition: control never comes to the next instruction. -/
def endsFlow (opcode : UInt8) : Bool :=
  opcode == 0xc3 || opcode == 0x18 || opcode == 0xc9 || opcode == 0xd9

/-- The signed value of a byte. -/
def signed (value : UInt8) : Int :=
  if value < 0x80 then value.toNat else (value.toNat : Int) - 0x100

end Opcode

end Sm83
