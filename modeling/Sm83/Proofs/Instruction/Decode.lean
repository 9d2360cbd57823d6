import Sm83.Instruction.Decode

/-!
# What is decoded from which bytes

`decode?_eq_some_iff` says for each kind of operand which bytes make up an instruction.
-/

namespace Sm83

namespace Opcode

/-- The relative jumps, with or without a condition. -/
def relativeJumps : List UInt8 := [0x18, 0x20, 0x28, 0x30, 0x38]

theorem signed_bounds (value : UInt8) : -128 ≤ signed value ∧ signed value ≤ 127 := by
  have bound := value.toNat_lt
  rw [signed]
  split
  · next small =>
      have : value.toNat < 128 := by simpa [UInt8.lt_iff_toNat_lt] using small
      omega
  · next large =>
      have : ¬value.toNat < 128 := by simpa [UInt8.lt_iff_toNat_lt] using large
      omega

theorem signed_injective {value value' : UInt8} (same : signed value = signed value') :
    value = value' := by
  have bound := value.toNat_lt
  have bound' := value'.toNat_lt
  apply UInt8.toNat_inj.mp
  simp only [signed] at same
  split at same <;> split at same <;> simp only [UInt8.lt_iff_toNat_lt] at * <;> omega

end Opcode

namespace Encoding

theorem operand_eq_distance_iff (opcode : UInt8) :
    (ofOpcode opcode).operand = .distance ↔ opcode ∈ Opcode.relativeJumps := by
  have table : ∀ n < 256, (ofOpcode (UInt8.ofNat n)).operand = .distance ↔
      UInt8.ofNat n ∈ Opcode.relativeJumps := by decide +kernel
  simpa using table opcode.toNat opcode.toNat_lt

theorem operand_eq_extended_iff (opcode : UInt8) :
    (ofOpcode opcode).operand = .extended ↔ opcode = Opcode.escape := by
  have table : ∀ n < 256, (ofOpcode (UInt8.ofNat n)).operand = .extended ↔
      UInt8.ofNat n = Opcode.escape := by decide +kernel
  simpa using table opcode.toNat opcode.toNat_lt

theorem size_eq_two_of_distance {opcode : UInt8} (jump : (ofOpcode opcode).operand = .distance) :
    (ofOpcode opcode).size = 2 := by
  simp [size, jump, OperandKind.size]

end Encoding

namespace Instruction

theorem wordOf_injective {low high low' high' : UInt8}
    (same : wordOf low high = wordOf low' high') : low = low' ∧ high = high' := by
  have bound := low.toNat_lt
  have bound' := low'.toNat_lt
  simp only [wordOf] at same
  exact ⟨UInt8.toNat_inj.mp (by omega), UInt8.toNat_inj.mp (by omega)⟩

theorem wordOf_lt (low high : UInt8) : wordOf low high < 0x10000 := by
  have bound := low.toNat_lt
  have bound' := high.toNat_lt
  rw [wordOf]
  omega

variable {byte? byte?' : Nat → Option UInt8} {offset : Nat} {instruction : Instruction}

/-- The bytes behind an opcode make up the operand that its encoding asks for. -/
def OperandBytes (byte? : Nat → Option UInt8) (offset : Nat) (instruction : Instruction) : Prop :=
  match (Encoding.ofOpcode instruction.opcode).operand with
  | .none => instruction.template = (Encoding.ofOpcode instruction.opcode).template ∧
      instruction.operand = .none
  | .byte => instruction.template = (Encoding.ofOpcode instruction.opcode).template ∧
      ∃ value, byte? (offset + 1) = some value ∧ instruction.operand = .byte value
  | .distance => instruction.template = (Encoding.ofOpcode instruction.opcode).template ∧
      ∃ value, byte? (offset + 1) = some value ∧
        instruction.operand = .distance (Opcode.signed value)
  | .highByte => instruction.template = (Encoding.ofOpcode instruction.opcode).template ∧
      ∃ value, byte? (offset + 1) = some value ∧
        instruction.operand = .high (0xff00 + value.toNat)
  | .extended => ∃ value, byte? (offset + 1) = some value ∧
      instruction.template = .fixed (Encoding.extendedText value) ∧ instruction.operand = .none
  | .word => instruction.template = (Encoding.ofOpcode instruction.opcode).template ∧
      ∃ low high, byte? (offset + 1) = some low ∧ byte? (offset + 2) = some high ∧
        instruction.operand = .word (wordOf low high)

/-- An instruction is decoded exactly from its opcode and the bytes of its operand. -/
theorem decode?_eq_some_iff :
    decode? byte? offset = some instruction ↔
      byte? offset = some instruction.opcode ∧ OperandBytes byte? offset instruction := by
  obtain ⟨opcode, template, operand⟩ := instruction
  simp only [decode?, OperandBytes]
  cases first : byte? offset with
  | none => simp
  | some found =>
      by_cases same : found = opcode
      · subst same
        simp only [Option.bind_eq_bind, Option.bind_some, Option.pure_def, true_and]
        cases (Encoding.ofOpcode found).operand <;> cases byte? (offset + 1) <;>
          cases byte? (offset + 2) <;> simp [@eq_comm _ _ template, @eq_comm _ _ operand]
      · simp only [Option.bind_eq_bind, Option.bind_some, Option.pure_def, Option.some.injEq, same,
          false_and, iff_false]
        cases (Encoding.ofOpcode found).operand <;> simp [Option.bind_eq_some_iff, same]

/-- An instruction that takes a word is written as its encoding has it, and has the word in the two
bytes behind its opcode. -/
theorem bytes_of_word (decoded : decode? byte? offset = some instruction)
    (takesWord : (Encoding.ofOpcode instruction.opcode).operand = .word) :
    instruction.template = (Encoding.ofOpcode instruction.opcode).template ∧
      ∃ low high, byte? (offset + 1) = some low ∧ byte? (offset + 2) = some high ∧
        instruction.operand = .word (wordOf low high) := by
  have bytes := (decode?_eq_some_iff.mp decoded).2
  rw [OperandBytes] at bytes
  simpa only [takesWord] using bytes

theorem OperandBytes.mono (bytes : OperandBytes byte? offset instruction)
    (found : ∀ k < instruction.size, ∀ value, byte? (offset + k) = some value →
      byte?' (offset + k) = some value) :
    OperandBytes byte?' offset instruction := by
  rw [OperandBytes] at *
  simp only [size, Encoding.size] at found
  cases kind : (Encoding.ofOpcode instruction.opcode).operand <;>
    simp only [kind, OperandKind.size] at bytes found ⊢
  case none => exact bytes
  case byte | distance | highByte =>
    obtain ⟨template, value, read, operand⟩ := bytes
    exact ⟨template, value, found 1 (by decide) value read, operand⟩
  case extended =>
    obtain ⟨value, read, written⟩ := bytes
    exact ⟨value, found 1 (by decide) value read, written⟩
  case word =>
    obtain ⟨template, low, high, readLow, readHigh, operand⟩ := bytes
    exact ⟨template, low, high, found 1 (by decide) low readLow, found 2 (by decide) high readHigh,
      operand⟩

theorem decode?_mono (decoded : decode? byte? offset = some instruction)
    (found : ∀ k < instruction.size, ∀ value, byte? (offset + k) = some value →
      byte?' (offset + k) = some value) :
    decode? byte?' offset = some instruction := by
  obtain ⟨first, bytes⟩ := decode?_eq_some_iff.mp decoded
  exact decode?_eq_some_iff.mpr ⟨found 0 instruction.size_pos _ first, bytes.mono found⟩

theorem decode?_isSome_iff :
    (∃ instruction, decode? byte? offset = some instruction) ↔
      ∃ opcode, byte? offset = some opcode ∧
        ∀ k < (Encoding.ofOpcode opcode).size, (byte? (offset + k)).isSome := by
  simp only [decode?, Encoding.size]
  cases first : byte? offset with
  | none => simp
  | some opcode =>
      simp only [Option.bind_eq_bind, Option.bind_some, Option.pure_def, Option.some.injEq,
        exists_eq_left']
      cases (Encoding.ofOpcode opcode).operand <;> cases second : byte? (offset + 1) <;>
        cases third : byte? (offset + 2) <;>
        simp only [OperandKind.size, Nat.reduceAdd, Nat.forall_lt_succ_left] <;>
        simp [first, second, third]

/-- The distance of a relative jump is the byte behind its opcode. -/
theorem operand_eq_distance_iff_of_decode? (decoded : decode? byte? offset = some instruction)
    {distance : Int} :
    instruction.operand = .distance distance ↔
      instruction.opcode ∈ Opcode.relativeJumps ∧
        ∃ value, byte? (offset + 1) = some value ∧ Opcode.signed value = distance := by
  have bytes := (decode?_eq_some_iff.mp decoded).2
  rw [← Encoding.operand_eq_distance_iff]
  rw [OperandBytes] at bytes
  cases kind : (Encoding.ofOpcode instruction.opcode).operand <;>
    simp only [kind] at bytes
  case distance =>
    obtain ⟨_, value, read, operand⟩ := bytes
    simp [read, operand]
  case none => simp [bytes.2]
  case extended =>
    obtain ⟨_, _, _, operand⟩ := bytes
    simp [operand]
  case byte | highByte =>
    obtain ⟨_, _, _, operand⟩ := bytes
    simp [operand]
  case word =>
    obtain ⟨_, _, _, _, _, operand⟩ := bytes
    simp [operand]

end Instruction

end Sm83
