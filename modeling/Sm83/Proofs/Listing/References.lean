import Mathlib
import Sm83.Proofs.Listing.LabelState
import Sm83.Proofs.Listing.Pruning
import Sm83.Proofs.Sweep.Usage

/-!
# Definitions and the references to them

A listing that ends in the bank that it starts in visits no address twice, so that every definition
it shows belongs to a label that one of its instructions refers to, and the row of this instruction
shows the same name.
-/

namespace Sm83

theorem Sweep.Reaches.nodup_addresses_of_sameBank {sweep : Sweep} {steps : List Step}
    {cursor : Cursor} {ended : Bool} (reached : sweep.Reaches steps cursor ended)
    (sameBank : Bank.ofOffset cursor.offset = Bank.ofOffset sweep.start) :
    (steps.map fun step => Bank.localAddress step.offset).Nodup := by
  apply reached.nodup_addresses_of_short
  have near : cursor.offset ≤ sweep.start + Bank.size := by
    simp only [Bank.ofOffset, Bank.size] at *
    omega
  exact near.trans (Nat.le_max_right _ _)

namespace Listing

variable {sweep : Sweep} {listing : Listing} {inData ended : Bool} {step : Step}

theorem definition_mem_lines {kind : LabelKind} {address : Nat} :
    Line.definition kind address ∈ listing.lines ↔ Visited listing.steps.toList address :=
  Sweep.definition_mem_linesOf ⟨.empty, .empty, listing.start, {}⟩ kind address

/-- An instruction that refers to a label shows the name of the label in its slot, wherever the
definition is shown. -/
theorem printsAt_reference (layout : Layout) (reached : sweep.Reaches listing.steps.toList
      ⟨listing.endOffset, inData, listing.labels⟩ ended)
    (passed : step ∈ listing.steps.toList) {instruction : Instruction} {kind : LabelKind}
    {address : Nat} {name : String}
    (refersTo : step.item = .code instruction (some (.label kind address)))
    (defined : listing.labels.definition? kind address = some name) :
    ∃ head tail, instruction.template = .around head tail ∧
      listing.PrintsAt layout step.offset [] (layout.indent ++ head ++ name ++ tail) := by
  obtain ⟨decoded, labels, referred⟩ := reached.referred passed refersTo
  have slotted : instruction.operand ≠ .none := by
    intro bare
    simp [Sweep.refer, bare] at referred
  obtain ⟨_, _, tail, slot, _⟩ := Instruction.template_of_operand decoded slotted
  refine ⟨_, tail, slot, ?_⟩
  have printed := listing.printsAt_item layout passed
  rwa [refersTo, Item.text_of_slot _ _ slot, Argument.text_label, defined, Option.getD_some]
    at printed

end Listing

/-- In a listing that ends in the bank that it starts in, every definition that is shown is that of
a label which an instruction of the listing refers to, and the row of the instruction shows the
same name. Under an indent of blanks, and with names from files, a line of the text that starts
like a definition is one of these. -/
theorem definitions_referred_to {image : ByteArray} {names : Names} {start : Nat}
    {options : Options} {listing : Listing}
    (ok : disassemble image names start options = .ok listing)
    (sameBank : Bank.ofOffset listing.endOffset = Bank.ofOffset start) :
    (∀ (layout : Layout) kind address name, .definition kind address ∈ listing.lines →
      (Line.definition kind address).text? listing.labels layout = some name →
      ∃ step ∈ listing.steps.toList, ∃ instruction head tail,
        step.item = .code instruction (some (.label kind address)) ∧
        instruction.template = .around head tail ∧
        listing.PrintsAt layout step.offset [] (layout.indent ++ head ++ name ++ tail)) ∧
    (names.FromFiles → ∀ layout : Layout, layout.IndentsByBlanks → ∀ (kind : LabelKind) numeral,
      (kind.stem ++ numeral).toList ∈ Text.lines (listing.text layout).toList →
      ∃ address, .definition kind address ∈ listing.lines ∧
        (Line.definition kind address).text? listing.labels layout =
          some (kind.stem ++ numeral)) := by
  obtain ⟨_, inData, reached⟩ := reaches_of_disassemble ok
  constructor
  · intro layout kind address name _ shown
    obtain ⟨label, found, used, _⟩ := LabelMap.definition?_eq_some_iff.mp shown
    have once := reached.nodup_addresses_of_sameBank sameBank
    have isUsed : listing.labels.isUsed kind address = true := by
      simpa [LabelMap.isUsed, found] using used
    obtain ⟨step, passed, instruction, refersTo⟩ := reached.refersTo_of_isUsed once isUsed
    obtain ⟨head, tail, slot, printed⟩ :=
      listing.printsAt_reference layout reached passed refersTo shown
    exact ⟨step, passed, instruction, head, tail, refersTo, slot, printed⟩
  · intro files layout blanks kind numeral listed
    obtain ⟨step, passed, origin, rfl, _, defined⟩ :=
      Listing.definition?_of_mem_lines reached files.words blanks listed
    exact ⟨_, Listing.definition_mem_lines.mpr ⟨step, passed, rfl⟩, defined⟩

/-- The definition of loaded data is that of the label which the load refers to. -/
theorem definitions_referred_to_of_load_and_jump :
    ∃ listing,
      disassemble (ByteArray.mk #[0x21, 0x07, 0x00, 0x20, 0x00, 0x00, 0xc9, 0x5a]) .empty 0
        { allowData := true } = .ok listing ∧
      Bank.ofOffset listing.endOffset = Bank.ofOffset 0 ∧
      .definition .data 7 ∈ listing.lines ∧
      (Line.definition .data 7).text? listing.labels {} = some ".data_7" ∧
      ∃ step ∈ listing.steps.toList, ∃ instruction head tail,
        step.item = .code instruction (some (.label .data 7)) ∧
        instruction.template = .around head tail ∧
        listing.PrintsAt {} step.offset [] ("\t" ++ head ++ ".data_7" ++ tail) := by
  have run : (disassemble (ByteArray.mk #[0x21, 0x07, 0x00, 0x20, 0x00, 0x00, 0xc9, 0x5a]) .empty 0
      { allowData := true }).map (fun listing => (listing.endOffset,
        listing.lines.contains (.definition .data 7),
        (Line.definition .data 7).text? listing.labels {})) = .ok (8, true, some ".data_7") := by
    cbv
  cases ok : disassemble (ByteArray.mk #[0x21, 0x07, 0x00, 0x20, 0x00, 0x00, 0xc9, 0x5a]) .empty 0
      { allowData := true } with
  | error error => rw [ok] at run; cases run
  | ok listing =>
      rw [ok] at run
      obtain ⟨ends, rest⟩ := Prod.mk.inj (Except.ok.inj run)
      obtain ⟨contains, shown⟩ := Prod.mk.inj rest
      have sameBank : Bank.ofOffset listing.endOffset = Bank.ofOffset 0 := by
        have atEnd : listing.endOffset = 8 := ends
        rw [atEnd]
        decide
      have listed : Line.definition .data 7 ∈ listing.lines := by simpa using contains
      exact ⟨listing, rfl, sameBank, listed, shown,
        (definitions_referred_to ok sameBank).1 {} .data 7 ".data_7" listed shown⟩

end Sm83
