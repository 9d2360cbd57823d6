import Sm83.Proofs.Instruction.Decode
import Sm83.Proofs.Text.Cut
import Sm83.Proofs.Text.Numeral

/-!
# How instructions are written

A written instruction can be taken apart again. What stands in front of its operand holds none of
the marks that operands start with, what stands behind it starts with a bracket, and together with
the number of bytes this tells which opcode was written.
-/

namespace Sm83

/-! ## Distinct texts in a table -/

/-- Whether no number occurs twice. -/
def allDifferent : List Nat → Bool
  | [] => true
  | n :: rest => rest.all (fun m => !Nat.beq n m) && allDifferent rest

theorem nodup_of_allDifferent {numbers : List Nat} (once : allDifferent numbers = true) :
    numbers.Nodup := by
  induction numbers with
  | nil => exact List.nodup_nil
  | cons n rest ih =>
      simp only [allDifferent, Bool.and_eq_true, List.all_eq_true, Bool.not_eq_true'] at once
      refine List.nodup_cons.mpr ⟨fun again => ?_, ih once.2⟩
      have differs := once.1 n again
      simp at differs

theorem injective_of_table (f : UInt8 → Nat)
    (once : allDifferent ((List.range 256).map fun n => f (UInt8.ofNat n)) = true) {a b : UInt8}
    (same : f a = f b) : a = b := by
  have nodup := nodup_of_allDifferent once
  have entry (c : UInt8) :
      ((List.range 256).map fun n => f (UInt8.ofNat n))[c.toNat]? = some (f c) := by
    simp [List.getElem?_range c.toNat_lt]
  have sameIndex := (List.getElem?_inj (by simp [a.toNat_lt]) nodup).mp
    ((entry a).trans (same ▸ (entry b).symm))
  exact UInt8.toNat_inj.mp sameIndex

/-! ## Opcodes -/

namespace Encoding

/-- A number that stands for an encoding in comparisons. -/
def code (encoding : Encoding) : Nat :=
  4 * Text.code encoding.template.text + encoding.size

/-- The number of bytes and the template tell opcodes apart. -/
theorem opcode_injective {opcode opcode' : UInt8}
    (sameSize : (ofOpcode opcode).size = (ofOpcode opcode').size)
    (sameTemplate : (ofOpcode opcode).template = (ofOpcode opcode').template) :
    opcode = opcode' := by
  have table : allDifferent ((List.range 256).map fun n =>
      (ofOpcode (UInt8.ofNat n)).code) = true := by
    decide +kernel
  apply injective_of_table (fun opcode => (ofOpcode opcode).code) table
  simp only [code, sameSize, sameTemplate]

theorem extendedText_injective {opcode opcode' : UInt8}
    (same : extendedText opcode = extendedText opcode') : opcode = opcode' := by
  have table : allDifferent ((List.range 256).map fun n =>
      Text.code (extendedText (UInt8.ofNat n))) = true := by
    decide +kernel
  apply injective_of_table (fun opcode => Text.code (extendedText opcode)) table
  simp only [same]

end Encoding

/-! ## Operands in their slots -/

/-- The characters that operands start with. -/
def marks : List Char := ['$', '.', 'F', '@']

/-- An operand can be found again in its slot: it starts with a mark, and does not hold the bracket
that may close the slot, nor the end of its row. -/
structure Marked (operand : String) : Prop where
  starts : ∃ mark ∈ marks, operand.toList.head? = some mark
  noBracket : ']' ∉ operand.toList
  oneRow : '\n' ∉ operand.toList

namespace Template

/-- What can stand behind a slot. -/
def tails : List String := ["", "]", "], a", "], sp"]

/-- A slot can be found again where no mark stands in front of it, and nothing or a bracket
behind it. -/
structure Clear (head tail : String) : Prop where
  unmarked : ∀ mark ∈ marks, mark ∉ head.toList
  tail_mem : tail ∈ tails

theorem Clear.closes {head tail : String} (clear : Clear head tail) :
    ∀ c, tail.toList.head? = some c → c = ']' := by
  have table : ∀ tail ∈ tails, ∀ c, tail.toList.head? = some c → c = ']' := by simp [tails]
  exact table tail clear.tail_mem

theorem Clear.oneRow {head tail : String} (clear : Clear head tail) : '\n' ∉ tail.toList := by
  have table : ∀ tail ∈ tails, '\n' ∉ tail.toList := by simp [tails]
  exact table tail clear.tail_mem

variable {head tail head' tail' operand operand' : String}

theorem fill_injective (clear : Clear head tail) (clear' : Clear head' tail')
    (marked : Marked operand) (marked' : Marked operand')
    (same : (around head tail).fill operand = (around head' tail').fill operand') :
    around head tail = around head' tail' ∧ operand = operand' := by
  have characters := congrArg String.toList same
  simp only [fill, around, String.toList_append, List.append_assoc] at characters
  have unmarked {head tail : String} (clear : Clear head tail) : ∀ c ∈ head.toList, ¬c ∈ marks :=
    fun c written isMark => clear.unmarked c isMark written
  have starts {operand tail : String} (marked : Marked operand) :
      ∀ c, (operand.toList ++ tail.toList).head? = some c → c ∈ marks := by
    intro c first
    obtain ⟨mark, isMark, here⟩ := marked.starts
    rw [List.head?_append, here, Option.some_or] at first
    exact Option.some.inj first ▸ isMark
  have unclosed {operand : String} (marked : Marked operand) : ∀ c ∈ operand.toList, ¬c = ']' :=
    fun c written isBracket => marked.noBracket (isBracket ▸ written)
  obtain ⟨sameHead, rest⟩ := Text.append_inj_of_stop (unmarked clear) (unmarked clear')
    (starts marked) (starts marked') characters
  obtain ⟨sameOperand, sameTail⟩ := Text.append_inj_of_stop (unclosed marked) (unclosed marked')
    clear.closes clear'.closes rest
  rw [String.toList_injective sameHead, String.toList_injective sameTail]
  exact ⟨rfl, String.toList_injective sameOperand⟩

end Template

/-! ## Slots of encodings -/

/-- Whether no byte of a text is one of some characters. -/
def Text.lacks (missing : List Char) (text : String) : Bool :=
  missing.all fun c => c.utf8Size == 1 && !(bytes text).contains c.val.toUInt8

theorem Text.notMem_of_lacks {missing : List Char} {text : String} {c : Char}
    (lacks : lacks missing text = true) (isMissing : c ∈ missing) : c ∉ text.toList := by
  have all := List.all_eq_true.mp lacks c isMissing
  simp only [Bool.and_eq_true, beq_iff_eq, Bool.not_eq_true', List.contains_eq_mem,
    decide_eq_false_iff_not] at all
  exact notMem_of_byte all.1 all.2

namespace Encoding

/-- Whether an encoding keeps to one row, with a slot that can be found again if it has operands. -/
def isWellWritten (encoding : Encoding) : Bool :=
  match encoding.template.tail with
  | none => decide (encoding.operand = .none) && Text.lacks ['\n'] encoding.template.head
  | some tail =>
    decide (encoding.operand ≠ .none) && Text.lacks ('\n' :: marks) encoding.template.head &&
      Template.tails.contains tail

theorem isWellWritten_ofOpcode (opcode : UInt8) : (ofOpcode opcode).isWellWritten = true := by
  have table : ∀ n < 256, (ofOpcode (UInt8.ofNat n)).isWellWritten = true := by decide +kernel
  simpa using table opcode.toNat opcode.toNat_lt

theorem tail_eq_none_iff (opcode : UInt8) :
    (ofOpcode opcode).template.tail = none ↔ (ofOpcode opcode).operand = .none := by
  have written := isWellWritten_ofOpcode opcode
  rw [isWellWritten] at written
  split at written
  · next bare => simp_all
  · next slotted => simp_all

theorem clear_of_tail {opcode : UInt8} {tail : String}
    (slotted : (ofOpcode opcode).template.tail = some tail) :
    Template.Clear (ofOpcode opcode).template.head tail := by
  have written := isWellWritten_ofOpcode opcode
  simp only [isWellWritten, slotted, Bool.and_eq_true, List.contains_iff_mem] at written
  obtain ⟨⟨_, lacks⟩, isTail⟩ := written
  exact ⟨fun mark isMark => Text.notMem_of_lacks lacks (List.mem_cons_of_mem _ isMark), isTail⟩

theorem newline_notMem_head (opcode : UInt8) :
    '\n' ∉ (ofOpcode opcode).template.head.toList := by
  have written := isWellWritten_ofOpcode opcode
  rw [isWellWritten] at written
  split at written
  · simp only [Bool.and_eq_true] at written
    exact Text.notMem_of_lacks written.2 List.mem_cons_self
  · simp only [Bool.and_eq_true] at written
    exact Text.notMem_of_lacks written.1.2 List.mem_cons_self

/-- Only the opcodes that are no instructions are written like a byte of data. -/
theorem opcode_of_unknown {opcode value : UInt8}
    (unknown : (ofOpcode opcode).template.head = "db $" ++ Text.hexWide 2 value.toNat) :
    opcode = value := by
  have table : ∀ n < 256, (Text.bytes (ofOpcode (UInt8.ofNat n)).template.head).take 4 =
      Text.bytes "db $" →
        (ofOpcode (UInt8.ofNat n)).template.head = "db $" ++ Text.hexWide 2 n := by
    decide +kernel
  have entry := table opcode.toNat opcode.toNat_lt
  rw [UInt8.ofNat_toNat, unknown, Text.bytes_append] at entry
  have numerals := (String.append_right_inj _).mp (entry (List.take_left' rfl))
  exact (UInt8.toNat_inj.mp (Text.hexWide_injective numerals)).symm

theorem lacks_extendedText (opcode : UInt8) :
    Text.lacks ('\n' :: marks) (extendedText opcode) = true := by
  have table : ∀ n < 256, Text.lacks ('\n' :: marks) (extendedText (UInt8.ofNat n)) = true := by
    decide +kernel
  simpa using table opcode.toNat opcode.toNat_lt

/-- Apart from the escape to the extended set, an encoding starts with a mnemonic, which holds no
dot. -/
theorem dot_notMem_head {opcode : UInt8} (basic : (ofOpcode opcode).operand ≠ .extended) :
    (ofOpcode opcode).template.head ≠ "" ∧ '.' ∉ (ofOpcode opcode).template.head.toList := by
  have table : ∀ n < 256, (ofOpcode (UInt8.ofNat n)).operand ≠ .extended →
      Text.bytes (ofOpcode (UInt8.ofNat n)).template.head ≠ [] ∧
        Text.lacks ['.'] (ofOpcode (UInt8.ofNat n)).template.head = true := by
    decide +kernel
  have entry := table opcode.toNat opcode.toNat_lt
  rw [UInt8.ofNat_toNat] at entry
  obtain ⟨notEmpty, lacks⟩ := entry basic
  exact ⟨fun empty => notEmpty (by rw [empty]; rfl),
    Text.notMem_of_lacks lacks List.mem_cons_self⟩

theorem extendedText_ne_empty (opcode : UInt8) : extendedText opcode ≠ "" := by
  have table : ∀ n < 256, Text.bytes (extendedText (UInt8.ofNat n)) ≠ [] := by decide +kernel
  have notEmpty := table opcode.toNat opcode.toNat_lt
  rw [UInt8.ofNat_toNat] at notEmpty
  exact fun empty => notEmpty (by rw [empty]; rfl)

end Encoding

/-! ## Decoded instructions -/

namespace Instruction

variable {byte? byte?' : Nat → Option UInt8} {offset : Nat} {instruction : Instruction}

theorem byte?_eq_of_decode? (decoded : decode? byte? offset = some instruction)
    (decoded' : decode? byte?' offset = some instruction) {k : Nat}
    (inside : k < instruction.size) : byte? (offset + k) = byte?' (offset + k) := by
  obtain ⟨first, bytes⟩ := decode?_eq_some_iff.mp decoded
  obtain ⟨first', bytes'⟩ := decode?_eq_some_iff.mp decoded'
  have opcode : byte? offset = byte?' offset := first.trans first'.symm
  rw [OperandBytes] at bytes bytes'
  simp only [size, Encoding.size] at inside
  cases kind : (Encoding.ofOpcode instruction.opcode).operand <;>
    simp only [kind, OperandKind.size] at bytes bytes' inside
  case none =>
    obtain rfl : k = 0 := by omega
    exact opcode
  case byte | highByte =>
    obtain ⟨_, value, read, operand⟩ := bytes
    obtain ⟨_, value', read', operand'⟩ := bytes'
    have same : value = value' := by
      rw [operand] at operand'
      simpa [← UInt8.toNat_inj] using operand'
    obtain rfl | rfl : k = 0 ∨ k = 1 := by omega
    · exact opcode
    · rw [read, read', same]
  case distance =>
    obtain ⟨_, value, read, operand⟩ := bytes
    obtain ⟨_, value', read', operand'⟩ := bytes'
    have same : value = value' := by
      rw [operand] at operand'
      exact Opcode.signed_injective (Operand.distance.inj operand')
    obtain rfl | rfl : k = 0 ∨ k = 1 := by omega
    · exact opcode
    · rw [read, read', same]
  case extended =>
    obtain ⟨value, read, template, _⟩ := bytes
    obtain ⟨value', read', template', _⟩ := bytes'
    have same : value = value' := by
      rw [template] at template'
      exact Encoding.extendedText_injective (Template.mk.inj template').1
    obtain rfl | rfl : k = 0 ∨ k = 1 := by omega
    · exact opcode
    · rw [read, read', same]
  case word =>
    obtain ⟨_, low, high, readLow, readHigh, operand⟩ := bytes
    obtain ⟨_, low', high', readLow', readHigh', operand'⟩ := bytes'
    obtain ⟨rfl, rfl⟩ : low = low' ∧ high = high' := by
      rw [operand] at operand'
      exact wordOf_injective (Operand.word.inj operand')
    obtain rfl | rfl | rfl : k = 0 ∨ k = 1 ∨ k = 2 := by omega
    · exact opcode
    · rw [readLow, readLow']
    · rw [readHigh, readHigh']

end Instruction

end Sm83
