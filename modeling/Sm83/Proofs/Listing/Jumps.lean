import Mathlib
import Sm83.Proofs.Listing.Definitions

/-!
# Where the jumps of a listing point

A listing that ends in the bank that it starts in, and not at a hard stop, shows every relative jump
with the place that its bytes lead to. `shows_relative_jump` takes the three cases together: targets
in the listing, in front of its start, and in front of the image.
-/

namespace Sm83

/-! ## The text of a jump -/

theorem Encoding.template_of_relativeJump {opcode : UInt8}
    (relative : opcode ∈ Opcode.relativeJumps) :
    (ofOpcode opcode).template = .around (ofOpcode opcode).template.head "" := by
  have table : ∀ opcode ∈ Opcode.relativeJumps,
      (ofOpcode opcode).template = .around (ofOpcode opcode).template.head "" := by
    decide +kernel
  exact table opcode relative

theorem Instruction.bytes_of_relativeJump {byte? : Nat → Option UInt8} {offset : Nat}
    {instruction : Instruction} (decoded : decode? byte? offset = some instruction)
    (relative : instruction.opcode ∈ Opcode.relativeJumps) :
    instruction.template = .around (Encoding.ofOpcode instruction.opcode).template.head "" ∧
      ∃ value, byte? (offset + 1) = some value ∧
        instruction.operand = .distance (Opcode.signed value) := by
  have bytes := (decode?_eq_some_iff.mp decoded).2
  have kind := (Encoding.operand_eq_distance_iff _).mpr relative
  rw [OperandBytes] at bytes
  simp only [kind] at bytes
  rw [bytes.1]
  exact ⟨Encoding.template_of_relativeJump relative, bytes.2⟩

/-- The row of a jump or a call that shows an operand. -/
def Layout.jumpRow (layout : Layout) (opcode : UInt8) (operand : String) : String :=
  layout.indent ++ (Encoding.ofOpcode opcode).template.head ++ operand

theorem Item.text_of_template (labels : LabelMap) (layout : Layout) {instruction : Instruction}
    (template : instruction.template =
      .around (Encoding.ofOpcode instruction.opcode).template.head "") (argument : Argument) :
    (Item.code instruction (some argument)).text labels layout =
      layout.jumpRow instruction.opcode (argument.text labels) := by
  rw [text_of_slot labels layout template, String.append_empty, Layout.jumpRow]

namespace Sweep

variable {sweep : Sweep} {steps : List Step} {cursor : Cursor} {step : Step} {target : Nat}

/-! ## Targets in the listing -/

/-- While the sweep stays in its bank, the label of a jump is named after its target. -/
theorem Reaches.jump_name {ended : Bool} (reached : sweep.Reaches steps cursor ended)
    (passed : step ∈ steps) (jump : step.target? = some target) (inside : sweep.start ≤ target)
    (inBank : Bank.ofOffset target = Bank.ofOffset sweep.start) :
    cursor.labels.definition? .code (Bank.localAddress target) =
      some (LabelKind.code.nameAt target) := by
  obtain ⟨_, label, found, positive, origin, above, near, there, name⟩ :=
    reached.jump_label passed jump inside
  have same : origin = target := by
    rcases Nat.lt_or_ge origin target with before | behind
    · have originBank := Bank.ofOffset_eq_of_between inBank.symm above (Nat.le_of_lt before)
      exact Bank.eq_of_localAddress_of_ofOffset there (originBank.trans inBank.symm)
    · exact (Bank.eq_of_localAddress_of_near there.symm behind near).symm
  have used : label.isUsed = true := by simpa [Label.isUsed] using positive
  exact LabelMap.definition?_eq_some_iff.mpr ⟨label, found, used, same ▸ name⟩

/-- A run that ends in its bank, and not at a hard stop, passes a step at every target. -/
theorem Reaches.step_at_target (reached : sweep.Reaches steps cursor true)
    (noHardStop : sweep.options.hardStop = false)
    (sameBank : Bank.ofOffset cursor.offset = Bank.ofOffset sweep.start)
    (passed : step ∈ steps) (jump : step.target? = some target) (inside : sweep.start ≤ target)
    (inBank : Bank.ofOffset target = Bank.ofOffset sweep.start) :
    ∃ landing ∈ steps, landing.offset = target := by
  obtain ⟨landing, found, there⟩ :=
    reached.landed noHardStop ⟨step, passed, target, jump, inside, rfl⟩
  have bounds := reached.tiles.bounds found
  have landingBank :=
    Bank.ofOffset_eq_of_between sameBank.symm bounds.1 (by omega : landing.offset ≤ cursor.offset)
  exact ⟨landing, found,
    Bank.eq_of_localAddress_of_ofOffset there (landingBank.trans inBank.symm)⟩

end Sweep

/-! ## Jumps in a listing -/

/-- Every relative jump of a listing shows where its bytes lead. A target from the start on and in
the same bank is the offset of an item, which stands directly below the name that the jump shows; a
target in front of the start is shown as a routine, and one in front of the image by its distance.
-/
theorem shows_relative_jump {image : ByteArray} {names : Names} {start : Nat} {options : Options}
    {listing : Listing} (layout : Layout)
    (ok : disassemble image names start options = .ok listing)
    (noHardStop : options.hardStop = false)
    (sameBank : Bank.ofOffset listing.endOffset = Bank.ofOffset start)
    {step : Step} {instruction : Instruction} {argument : Option Argument}
    (passed : step ∈ listing.steps.toList) (code : step.item = .code instruction argument)
    (relative : instruction.opcode ∈ Opcode.relativeJumps) :
    image[step.offset]? = some instruction.opcode ∧
    ∃ operand, image[step.offset + 1]? = some operand ∧
      let target : Int := step.offset + 2 + Opcode.signed operand
      let shows (text : String) : Prop :=
        listing.PrintsAt layout step.offset [] (layout.jumpRow instruction.opcode text)
      (∀ t : Nat, target = t → start ≤ t → Bank.ofOffset t = Bank.ofOffset start →
        t < listing.endOffset ∧
        (∀ other ∈ listing.steps.toList, t ≤ other.offset ∨ other.offset + other.item.size ≤ t) ∧
        shows (".asm_" ++ Text.hex t) ∧
        ∃ landing ∈ listing.steps.toList, landing.offset = t ∧
          listing.PrintsAt layout t [".asm_" ++ Text.hex t]
            (landing.item.text listing.labels layout)) ∧
      (∀ t : Nat, target = t → t < start → shows ("Func_" ++ Text.hex t)) ∧
      (target < 0 → shows ("@" ++ signedText (2 + Opcode.signed operand))) := by
  obtain ⟨startEq, inData, reached⟩ := reaches_of_disassemble ok
  have reads := reached.reads passed
  simp only [Sweep.Reads, code] at reads
  obtain ⟨first, bytes⟩ := Instruction.decode?_eq_some_iff.mp reads
  obtain ⟨template, operand, second, distance⟩ := Instruction.bytes_of_relativeJump reads relative
  refine ⟨Sweep.getElem?_of_byte? first, operand, Sweep.getElem?_of_byte? second, ?_⟩
  have jumps (t : Nat) (lands : (step.offset : Int) + 2 + Opcode.signed operand = t) :
      step.target? = some t := by
    simp only [Step.target?, code]
    exact Instruction.target?_eq_some_iff.mpr ⟨_, distance, lands⟩
  have row (shown : Argument) (refers : argument = some shown) :
      listing.PrintsAt layout step.offset []
        (layout.jumpRow instruction.opcode (shown.text listing.labels)) := by
    have printed := listing.printsAt_item layout passed
    rwa [code, refers, Item.text_of_template _ _ template] at printed
  refine ⟨fun t lands inside inBank => ?_, fun t lands before => ?_, fun outside => ?_⟩
  · have jump := jumps t lands
    have name := reached.jump_name passed jump inside inBank
    obtain ⟨⟨_, item⟩, _⟩ := reached.jump_label passed jump inside
    obtain ⟨landing, there, rfl⟩ :=
      reached.step_at_target noHardStop sameBank passed jump inside inBank
    refine ⟨?_, fun other passed' => reached.tiles.apart passed' there, ?_, landing, there, rfl, ?_⟩
    · have pos := landing.item.size_pos
      exact Nat.lt_of_lt_of_le (Nat.lt_add_of_pos_right pos) (reached.tiles.bounds there).2
    · have printed := row (.label .code (Bank.localAddress landing.offset)) (by grind)
      rwa [Argument.text_label, name] at printed
    · exact listing.printsAt_definition layout there (reached.definitions_eq_singleton name)
  · obtain ⟨_, item⟩ := reached.routine_of_behind passed (jumps t lands) before
    have printed := row (.routine t) (by grind)
    rwa [Argument.text, routineName] at printed
  · have printed := row _ (reached.relative_of_neg passed code distance outside)
    rwa [Argument.text] at printed

/-- A jump over a return shows the name that stands above the return that it lands on. -/
theorem shows_relative_jump_over_return :
    ∃ listing, disassemble (ByteArray.mk #[0x20, 0x01, 0xc9, 0xc9]) .empty 0 {} = .ok listing ∧
      Bank.ofOffset listing.endOffset = Bank.ofOffset 0 ∧
      (∃ step ∈ listing.steps.toList, step.offset = 0 ∧ step.item.firstByte = 0x20) ∧
      listing.PrintsAt {} 0 [] (Layout.jumpRow {} 0x20 (".asm_" ++ Text.hex 3)) ∧
      ∃ landing ∈ listing.steps.toList, landing.offset = 3 ∧
        listing.PrintsAt {} 3 [".asm_" ++ Text.hex 3] (landing.item.text listing.labels {}) := by
  let jump : Instruction := ⟨0x20, .around "jr nz, " "", .distance 1⟩
  let step : Step := ⟨0, .code jump (some (.label .code 3)), false, false⟩
  have run : (disassemble (ByteArray.mk #[0x20, 0x01, 0xc9, 0xc9]) .empty 0 {}).map
      (fun listing => (listing.endOffset, listing.steps.toList.head?)) = .ok (4, some step) := by
    cbv
  cases ok : disassemble (ByteArray.mk #[0x20, 0x01, 0xc9, 0xc9]) .empty 0 {} with
  | error error => rw [ok] at run; cases run
  | ok listing =>
      rw [ok] at run
      simp only [Except.map, Except.ok.injEq, Prod.mk.injEq] at run
      obtain ⟨ends, head⟩ := run
      have passed : step ∈ listing.steps.toList := List.mem_of_mem_head? head
      have sameBank : Bank.ofOffset listing.endOffset = Bank.ofOffset 0 := by rw [ends]; decide
      obtain ⟨_, operand, second, inside, _⟩ :=
        shows_relative_jump {} ok rfl sameBank passed rfl (by decide)
      obtain rfl : operand = 1 := by
        have byte : (ByteArray.mk #[0x20, 0x01, 0xc9, 0xc9])[0 + 1]? = some 1 := by decide
        exact Option.some.inj (second.symm.trans byte)
      obtain ⟨_, _, shown, landed⟩ := inside 3 (by decide) (by decide) (by decide)
      exact ⟨listing, rfl, sameBank, ⟨step, passed, rfl, rfl⟩, shown, landed⟩

end Sm83
