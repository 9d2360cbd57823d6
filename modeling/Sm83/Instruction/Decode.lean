import Sm83.Instruction.Encoding

/-! # Reading one instruction -/

namespace Sm83

/-- The operand of an instruction, before names and labels are considered. -/
inductive Operand where
  /-- No operand beside what the template shows. -/
  | none
  /-- A byte. -/
  | byte (value : UInt8)
  /-- The signed distance of a relative jump. -/
  | distance (value : Int)
  /-- An address in `$ff00-$ffff`. -/
  | high (address : Nat)
  /-- A word. -/
  | word (value : Nat)
  deriving DecidableEq, Repr

/-- An instruction as its bytes have it. -/
structure Instruction where
  opcode : UInt8
  template : Template
  operand : Operand
  deriving DecidableEq, Repr

namespace Instruction

/-- The number of bytes that an instruction takes. -/
def size (instruction : Instruction) : Nat :=
  (Encoding.ofOpcode instruction.opcode).size

/-- The word that two bytes form, low byte first. -/
def wordOf (low high : UInt8) : Nat :=
  low.toNat + 0x100 * high.toNat

/-- The instruction at an offset, if all of its bytes are there. -/
def decode? (byte? : Nat → Option UInt8) (offset : Nat) : Option Instruction := do
  let opcode ← byte? offset
  let encoding := Encoding.ofOpcode opcode
  match encoding.operand with
  | .none => return ⟨opcode, encoding.template, .none⟩
  | .byte => return ⟨opcode, encoding.template, .byte (← byte? (offset + 1))⟩
  | .distance =>
    return ⟨opcode, encoding.template, .distance (Opcode.signed (← byte? (offset + 1)))⟩
  | .highByte =>
    return ⟨opcode, encoding.template, .high (0xff00 + (← byte? (offset + 1)).toNat)⟩
  | .extended =>
    return ⟨opcode, .fixed (Encoding.extendedText (← byte? (offset + 1))), .none⟩
  | .word =>
    let low ← byte? (offset + 1)
    let high ← byte? (offset + 2)
    return ⟨opcode, encoding.template, .word (wordOf low high)⟩

theorem size_pos (instruction : Instruction) : 0 < instruction.size := by
  unfold size Encoding.size
  omega

/-- What is decoded starts with the byte at its offset. -/
theorem opcode_of_decode? {byte? : Nat → Option UInt8} {offset : Nat} {instruction : Instruction}
    (h : decode? byte? offset = some instruction) : byte? offset = some instruction.opcode := by
  unfold decode? at h
  cases hb : byte? offset with
  | none => simp [hb] at h
  | some opcode =>
    simp only [hb, Option.bind_eq_bind, Option.bind_some] at h
    split at h
    all_goals
      simp only [Option.bind_eq_some_iff, Option.pure_def, Option.some.injEq] at h
      grind

end Instruction

end Sm83
