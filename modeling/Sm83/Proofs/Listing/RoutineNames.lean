import Mathlib
import Sm83.Proofs.Listing.DefinitionLines
import Sm83.Proofs.Listing.Operands
import Sm83.Proofs.Listing.Routines

/-!
# Which words a routine is shown for

A word without a name is shown as the routine at its offset. Addresses in memory stand for
themselves, and with bank two or three mapped a word in the window has the number of one of them for
its offset. These two are shown alike; all other words are told apart.
-/

namespace Sm83

/-! ## Code behind zeros -/

/-- An image with a piece of code at an offset, and zeros in front of it. -/
def codeAt (start : Nat) (code : ByteArray) : ByteArray :=
  zeros start ++ code

namespace Plain

variable {code : ByteArray} {start : Nat}

theorem size_codeAt : (codeAt start code).size = start + code.size := by
  rw [codeAt, ByteArray.size_append, size_zeros]

theorem getElem?_codeAt (offset : Nat) : (codeAt start code)[start + offset]? = code[offset]? := by
  rcases Nat.lt_or_ge offset code.size with inside | behind
  · have inside' : start + offset < (codeAt start code).size := by rw [size_codeAt]; omega
    rw [getElem?_pos code offset inside, getElem?_pos (codeAt start code) _ inside']
    simp [codeAt, ByteArray.getElem_append_right, size_zeros]
  · have behind' : ¬start + offset < (codeAt start code).size := by rw [size_codeAt]; omega
    rw [getElem?_neg code offset (Nat.not_lt.mpr behind),
      getElem?_neg (codeAt start code) _ behind']

theorem sizeAt_codeAt (offset : Nat) :
    sizeAt (codeAt start code) (start + offset) = sizeAt code offset := by
  rw [sizeAt, sizeAt, getElem?_codeAt]

theorem boundary_codeAt (i : Nat) :
    boundary (codeAt start code) start i = start + boundary code 0 i := by
  induction i with
  | zero => rfl
  | succ i ih => rw [boundary, boundary, ih, sizeAt_codeAt, Nat.add_assoc]

theorem fits_codeAt_iff (small : start + code.size ≤ Bank.capacity) (offset : Nat) :
    Fits (codeAt start code) (start + offset) ↔ Fits code offset := by
  rw [Fits, Fits, ceiling, ceiling, size_codeAt, sizeAt_codeAt]
  omega

theorem jump?_codeAt_eq_none {offset : Nat} (none : jump? code offset = none) :
    jump? (codeAt start code) (start + offset) = .none := by
  unfold jump? at *
  rw [Nat.add_assoc, getElem?_codeAt, getElem?_codeAt]
  split at none <;> simp_all

theorem mayEnd_codeAt_iff {n : Nat} (small : start + code.size ≤ Bank.capacity)
    (straight : ∀ i ≤ n, jump? code (boundary code 0 i) = none) :
    MayEnd (codeAt start code) start {} n ↔ MayEnd code 0 {} n := by
  have landed : Landed code 0 n := by
    intro j passed target jump
    rw [straight j passed] at jump
    cases jump
  have landed' : Landed (codeAt start code) start n := by
    intro j passed target jump
    rw [boundary_codeAt, jump?_codeAt_eq_none (straight j passed)] at jump
    cases jump
  simp [MayEnd, boundary_codeAt, fits_codeAt_iff small, getElem?_codeAt, landed, landed']

end Plain

/-! ## Calls of words without a name -/

/-- Two calls or jumps to words without a name show the routines at the offsets of the words. These
are shown alike only if the words are the same, or if with bank two or three mapped one of them is
in the window and the other the address in memory that has the number of its offset. -/
theorem routines_shown_alike_iff {image : ByteArray} {names : Names} {start : Nat}
    {options : Options} {listing : Listing} (layout : Layout)
    (ok : disassemble image names start options = .ok listing) {step step' : Step}
    {instruction instruction' : Instruction} {argument argument' : Option Argument}
    (passed : step ∈ listing.steps.toList) (code : step.item = .code instruction argument)
    (goes : Opcode.goesToWord instruction.opcode = true)
    (passed' : step' ∈ listing.steps.toList) (code' : step'.item = .code instruction' argument')
    (goes' : Opcode.goesToWord instruction'.opcode = true) :
    ∃ low high low' high',
      image[step.offset + 1]? = some low ∧ image[step.offset + 2]? = some high ∧
      image[step'.offset + 1]? = some low' ∧ image[step'.offset + 2]? = some high' ∧
      let bank := Bank.ofOffset start
      let word := Instruction.wordOf low high
      let word' := Instruction.wordOf low' high'
      let shown := routineName (Bank.flatOffset word bank)
      let shown' := routineName (Bank.flatOffset word' bank)
      names.at? word (max bank 1) = none → names.at? word' (max bank 1) = none →
        listing.PrintsAt layout step.offset [] (layout.jumpRow instruction.opcode shown) ∧
        listing.PrintsAt layout step'.offset [] (layout.jumpRow instruction'.opcode shown') ∧
        (shown = shown' ↔ word = word' ∨ Bank.Clash bank word word' ∨ Bank.Clash bank word' word) :=
    by
  obtain ⟨low, high, second, third, _, printed⟩ := printsAt_goesToWord layout ok passed code goes
  obtain ⟨low', high', second', third', _, printed'⟩ :=
    printsAt_goesToWord layout ok passed' code' goes'
  refine ⟨low, high, low', high', second, third, second', third', fun nameless nameless' => ?_⟩
  rw [nameless] at printed
  rw [nameless'] at printed'
  refine ⟨printed, printed', ?_⟩
  rw [← Bank.flatOffset_eq_iff (Instruction.wordOf_lt low high) (Instruction.wordOf_lt low' high')]
  exact ⟨routineName_injective, fun same => by rw [same]⟩

/-! ## A word in the window and one in memory -/

/-- A call of the first word of the window and one of the first address in memory. -/
def twoCalls : ByteArray :=
  ⟨#[0xcd, 0x00, 0x40, 0xcd, 0x00, 0x80, 0xc9]⟩

theorem listed_twoCalls {start : Nat} (small : start + twoCalls.size ≤ Bank.capacity)
    (names : Names) :
    ∃ listing, disassemble (codeAt start twoCalls) names start {} = .ok listing ∧
      ∀ i < 2, ∃ step ∈ listing.steps.toList, step.offset = start + 3 * i ∧
        ∃ instruction argument, step.item = .code instruction argument ∧
          instruction.opcode = 0xcd := by
  have straight : ∀ i ≤ 2, Plain.jump? twoCalls (Plain.boundary twoCalls 0 i) = none := by decide
  have least : IsLeast {n | Plain.MayEnd (codeAt start twoCalls) start {} n} 2 := by
    refine ⟨(Plain.mayEnd_codeAt_iff small straight).mpr (by decide), fun n may =>
      Nat.le_of_not_lt fun before => ?_⟩
    have never : ∀ n < 2, ¬Plain.MayEnd twoCalls 0 {} n := by decide
    exact never n before
      ((Plain.mayEnd_codeAt_iff small fun i upTo => straight i (by omega)).mp may)
  have calls : ∀ i < 2, Plain.boundary twoCalls 0 i = 3 * i ∧ twoCalls[3 * i]? = some 0xcd := by
    decide
  obtain ⟨listing, ok, passes⟩ := Plain.listed_of_isLeast names rfl (by simp) least
  refine ⟨listing, ok, fun i isCall => ?_⟩
  obtain ⟨step, passed, here, instruction, argument, code, read⟩ := passes i (by omega)
  obtain ⟨atCall, opcode⟩ := calls i isCall
  rw [Plain.boundary_codeAt, atCall] at here read
  rw [Plain.getElem?_codeAt, opcode] at read
  exact ⟨step, passed, here, instruction, argument, code, (Option.some.inj read).symm⟩

/-- In bank zero the two calls show different routines. -/
theorem routines_shown_apart_in_bank_zero :
    ∃ listing, disassemble (codeAt 0 twoCalls) .empty 0 {} = .ok listing ∧
      listing.PrintsAt {} 0 [] (Layout.jumpRow {} 0xcd (routineName 0x4000)) ∧
      listing.PrintsAt {} 3 [] (Layout.jumpRow {} 0xcd (routineName 0x8000)) ∧
      routineName 0x4000 ≠ routineName 0x8000 := by
  obtain ⟨listing, ok, calls⟩ := listed_twoCalls (by decide : 0 + twoCalls.size ≤ _) .empty
  obtain ⟨step, passed, here, instruction, argument, code, call⟩ := calls 0 (by decide)
  obtain ⟨step', passed', here', instruction', argument', code', call'⟩ := calls 1 (by decide)
  obtain ⟨low, high, low', high', second, third, second', third', shows⟩ :=
    routines_shown_alike_iff {} ok passed code (by rw [call]; decide) passed' code'
      (by rw [call']; decide)
  rw [here, Nat.add_assoc, Plain.getElem?_codeAt] at second third
  rw [here', Nat.add_assoc, Plain.getElem?_codeAt] at second' third'
  cases second
  cases third
  cases second'
  cases third'
  obtain ⟨printed, printed', alike⟩ := shows (Names.at?_empty _ _) (Names.at?_empty _ _)
  rw [here, call] at printed
  rw [here', call'] at printed'
  exact ⟨listing, ok, printed, printed', fun same => absurd (alike.mp same) (by decide)⟩

/-- With bank two mapped both calls show the same routine, although they go to different words and
neither of these has a name. -/
theorem routine_shown_for_two_words :
    ∃ listing, disassemble (codeAt 0x8000 twoCalls) .empty 0x8000 {} = .ok listing ∧
      (codeAt 0x8000 twoCalls)[0x8001]? = some 0x00 ∧
      (codeAt 0x8000 twoCalls)[0x8002]? = some 0x40 ∧
      (codeAt 0x8000 twoCalls)[0x8004]? = some 0x00 ∧
      (codeAt 0x8000 twoCalls)[0x8005]? = some 0x80 ∧
      (∀ address bank, Names.empty.at? address bank = none) ∧
      ∀ i < 2,
        (∃ step ∈ listing.steps.toList, step.offset = 0x8000 + 3 * i ∧
          step.item.firstByte = 0xcd) ∧
        listing.PrintsAt {} (0x8000 + 3 * i) [] (Layout.jumpRow {} 0xcd (routineName 0x8000)) := by
  have small : 0x8000 + twoCalls.size ≤ Bank.capacity := by decide
  have bytes (i : Nat) : (codeAt 0x8000 twoCalls)[0x8000 + i]? = twoCalls[i]? :=
    Plain.getElem?_codeAt i
  obtain ⟨listing, ok, calls⟩ := listed_twoCalls small .empty
  refine ⟨listing, ok, bytes 1, bytes 2, bytes 4, bytes 5, Names.at?_empty, fun i isCall => ?_⟩
  obtain ⟨step, passed, here, instruction, argument, code, call⟩ := calls i isCall
  obtain ⟨low, high, second, third, _, printed⟩ :=
    printsAt_goesToWord {} ok passed code (by rw [call]; decide)
  have sameOffset :
      Bank.flatOffset (Instruction.wordOf low high) (Bank.ofOffset 0x8000) = 0x8000 := by
    have table : ∀ i < 2, ∀ low ∈ twoCalls[3 * i + 1]?, ∀ high ∈ twoCalls[3 * i + 2]?,
        Bank.flatOffset (Instruction.wordOf low high) (Bank.ofOffset 0x8000) = 0x8000 := by
      decide +kernel
    rw [here, Nat.add_assoc, bytes] at second third
    exact table i isCall low second high third
  rw [Names.at?_empty, Option.elim_none, Argument.text, sameOffset, here, call] at printed
  exact ⟨⟨step, passed, here, by rw [code]; exact call⟩, printed⟩

end Sm83
