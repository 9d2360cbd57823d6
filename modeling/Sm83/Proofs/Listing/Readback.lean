import Mathlib
import Sm83.Proofs.Listing.Items
import Sm83.Proofs.Names.Files
import Sm83.Proofs.Sweep.Outcome

/-!
# Rows read back from a text

No row of a listing holds a line feed, whatever names files give and unless the layout indents by
one. So the rows can be read back from the text of the listing by splitting it at its line feeds.
-/

namespace Sm83

/-! ## Rows without line feeds -/

theorem Text.IsWord.newline_notMem {text : List Char} (isWord : IsWord text) : '\n' ∉ text := by
  intro written
  exact absurd (isWord '\n' written) (by decide)

namespace Instruction

variable {byte? : Nat → Option UInt8} {offset : Nat} {instruction : Instruction}

theorem newline_notMem_of_bare (decoded : decode? byte? offset = some instruction)
    (bare : instruction.operand = .none) : '\n' ∉ instruction.template.text.toList := by
  rcases template_of_bare decoded bare with ⟨_, template, tail⟩ | ⟨_, _, value, template⟩
  · rw [Template.text, tail, template]
    exact Encoding.newline_notMem_head _
  · rw [template]
    exact Text.notMem_of_lacks (Encoding.lacks_extendedText value) List.mem_cons_self

theorem newline_notMem_of_operand (decoded : decode? byte? offset = some instruction)
    (slotted : instruction.operand ≠ .none) {shown : String} (oneRow : '\n' ∉ shown.toList) :
    '\n' ∉ (instruction.template.fill shown).toList := by
  obtain ⟨_, encoded, tail, template, clear⟩ := template_of_operand decoded slotted
  have head := Encoding.newline_notMem_head instruction.opcode
  rw [← encoded] at head
  rw [template]
  simp [Template.fill, Template.around, head, oneRow, clear.oneRow]

end Instruction

namespace Sweep

variable {sweep : Sweep} {steps : List Step} {cursor : Cursor} {ended : Bool} {step : Step}

theorem Reaches.newline_notMem_argument (reached : sweep.Reaches steps cursor ended)
    (words : sweep.names.Words) {offset : Nat} {operand : Operand} {argument : Argument}
    (given : operand.GivenAs sweep offset (some argument)) :
    '\n' ∉ (argument.text cursor.labels).toList := by
  have label (kind : LabelKind) (address : Nat) :
      '\n' ∉ ((Argument.label kind address).text cursor.labels).toList := by
    rw [Argument.text_label]
    cases shown : cursor.labels.definition? kind address with
    | none => exact (marked_addressText address).oneRow
    | some name =>
        obtain ⟨origin, _, rfl⟩ := reached.name_of_definition? shown
        exact (kind.marked_nameAt origin).oneRow
  cases given with
  | byte value =>
      exact (marked_dollar.append_numeral (Text.digits?_hexWide 2 value.toNat)).oneRow
  | highName known | wordName known => exact (words.at? known).newline_notMem
  | high | number => exact (marked_addressText _).oneRow
  | ahead | label => exact label _ _
  | behind | routine => exact (marked_routineName _).oneRow
  | outside => exact (marked_signedText _).oneRow

theorem Reaches.newline_notMem_item (reached : sweep.Reaches steps cursor ended)
    (words : sweep.names.Words) {layout : Layout} (indent : '\n' ∉ layout.indent.toList)
    (passed : step ∈ steps) : '\n' ∉ (step.item.text cursor.labels layout).toList := by
  obtain ⟨_, before, _, _, _, _, passes, _⟩ := reached.passing passed
  have takes := passes.takes
  cases kind : step.item with
  | data value =>
      have numeral : '\n' ∉ (Text.hexWide 2 value.toNat).toList :=
        Text.notMem_of_digits? (Text.digits?_hexWide 2 value.toNat) (by decide)
      simp [Item.text, indent, instructionText, Item.dataTemplate, Template.fill, Template.around,
        Argument.text, numeral]
  | code instruction argument =>
      rw [kind] at takes
      obtain ⟨decoded, referred⟩ := takes
      have given := givenAs_refer sweep (sweep.announce before.labels step.offset).1 step.offset
        instruction
      rw [referred] at given
      simp only [Item.text, String.toList_append, List.mem_append, not_or]
      refine ⟨indent, ?_⟩
      cases argument with
      | none =>
          have bare : instruction.operand = .none := by
            generalize instruction.operand = operand at given
            cases given
            rfl
          exact Instruction.newline_notMem_of_bare decoded bare
      | some argument =>
          have slotted : instruction.operand ≠ .none := by
            intro bare
            rw [bare] at given
            cases given
          exact Instruction.newline_notMem_of_operand decoded slotted
            (reached.newline_notMem_argument words given)

theorem Reaches.newline_notMem_rowsOf (reached : sweep.Reaches steps cursor ended)
    (words : sweep.names.Words) {layout : Layout} (indent : '\n' ∉ layout.indent.toList)
    (gap : Bool) :
    ∀ row ∈ Step.rowsOf cursor.labels layout gap steps, '\n' ∉ row.toList := by
  intro row shown
  rcases Step.mem_rowsOf shown with rfl | ⟨step, passed, here⟩
  · decide
  · rcases Step.mem_rows.mp here with ⟨kind, defined⟩ | item
    · obtain ⟨origin, _, rfl⟩ := reached.name_of_definition? defined
      exact (kind.marked_nameAt origin).oneRow
    · rw [item]
      exact reached.newline_notMem_item words indent passed

end Sweep

namespace Listing

variable {listing : Listing} {layout : Layout}

theorem newline_notMem_headerRow : '\n' ∉ listing.headerRow.toList := by
  have routine := (marked_routineName listing.start).oneRow
  have numeral (n : Nat) : '\n' ∉ (Text.hex n).toList :=
    Text.notMem_of_digits? (Text.digits?_hex n) (by decide)
  simp [headerRow, Bank.remark, routine, numeral]

theorem newline_notMem_trailer : '\n' ∉ (listing.trailer layout).toList := by
  have numeral : '\n' ∉ (Text.hex listing.endOffset).toList :=
    Text.notMem_of_digits? (Text.digits?_hex listing.endOffset) (by decide)
  rw [trailer]
  split <;> simp [numeral]

theorem splitRows_text {sweep : Sweep} {inData ended : Bool}
    (reached : sweep.Reaches listing.steps.toList ⟨listing.endOffset, inData, listing.labels⟩ ended)
    (words : sweep.names.Words) (indent : '\n' ∉ layout.indent.toList) :
    Text.splitRows (listing.text layout) =
      listing.rows layout ++ [listing.trailer layout] := by
  rw [text_eq_unlines]
  apply Text.splitRows_unlines_append _ newline_notMem_trailer
  intro row shown
  rcases List.mem_cons.mp shown with rfl | below
  · exact newline_notMem_headerRow
  · exact reached.newline_notMem_rowsOf words indent false row below

end Listing

end Sm83
