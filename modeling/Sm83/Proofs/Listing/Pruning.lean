import Mathlib
import Sm83.Proofs.Listing.DefinitionLines
import Sm83.Proofs.Text.Fields

/-!
# Labels that leave no line

A line of a text that is written like the definition of a label is just that: the definition of a
label in use. So the name of an unused label is no line, and of the two names that labels can have
for an offset at most one is.
-/

namespace Sm83

theorem LabelKind.return_notMem_nameAt (kind : LabelKind) (offset : Nat) :
    '\r' ∉ (kind.nameAt offset).toList := by
  have numeral : '\r' ∉ (Text.hex offset).toList :=
    Text.notMem_of_digits? (Text.digits?_hex offset) (by decide)
  cases kind <;> simp [nameAt, stem, numeral]

namespace Listing

variable {sweep : Sweep} {listing : Listing} {layout : Layout} {inData ended : Bool}

theorem definition?_of_mem_lines (reached : sweep.Reaches listing.steps.toList
      ⟨listing.endOffset, inData, listing.labels⟩ ended)
    (words : sweep.names.Words) (blanks : layout.IndentsByBlanks) {kind : LabelKind}
    {numeral : String}
    (listed : (kind.stem ++ numeral).toList ∈ Text.lines (listing.text layout).toList) :
    ∃ step ∈ listing.steps.toList, ∃ origin, numeral = Text.hex origin ∧
      Bank.localAddress origin = Bank.localAddress step.offset ∧
      listing.labels.definition? kind (Bank.localAddress step.offset) =
        some (kind.nameAt origin) := by
  obtain ⟨behind, isEnd, split⟩ : ∃ behind, (behind = "" ∨ behind = "\r") ∧
      kind.stem ++ numeral ++ behind ∈ Text.splitRows (listing.text layout) := by
    simp only [Text.splitRows, List.mem_map]
    rcases Text.mem_splitOn_of_mem_lines listed with whole | cut
    · exact ⟨"", .inl rfl, _, whole, by simp⟩
    · exact ⟨"\r", .inr rfl, _, cut, by simp [String.append_assoc]⟩
  have isRow : kind.stem ++ numeral ++ behind ∈ Text.definitions (listing.text layout) := by
    rw [String.append_assoc] at split ⊢
    exact List.mem_filter.mpr ⟨split, kind.isDefinition_stem_append _⟩
  rw [definitions_text_of_blanks reached words blanks, List.mem_flatMap] at isRow
  obtain ⟨step, passed, shown⟩ := isRow
  obtain ⟨kind', defined⟩ := Step.mem_definitions.mp shown
  obtain ⟨origin, there, named⟩ := reached.name_of_definition? defined
  rcases isEnd with rfl | rfl
  · rw [String.append_empty] at named defined
    obtain ⟨rfl, rfl⟩ := LabelKind.stem_append_injective named
    exact ⟨step, passed, origin, rfl, there, defined⟩
  · have noReturn := kind'.return_notMem_nameAt origin
    rw [← named] at noReturn
    simp at noReturn

end Listing

/-- A label that nothing uses leaves no line with its name in the text. Whatever stands behind the
stem, the text has not both a line for a code label and one for a data label. -/
theorem unused_labels_leave_no_line {image : ByteArray} {names : Names} {start : Nat}
    {options : Options} {listing : Listing} {layout : Layout} (files : names.FromFiles)
    (blanks : layout.IndentsByBlanks) (ok : disassemble image names start options = .ok listing) :
    (∀ kind address label, listing.labels.get? kind address = some label → label.usage = 0 →
      label.name.toList ∉ Text.lines (listing.text layout).toList) ∧
    ∀ numeral : String, ¬((".asm_" ++ numeral).toList ∈ Text.lines (listing.text layout).toList ∧
      (".data_" ++ numeral).toList ∈ Text.lines (listing.text layout).toList) := by
  obtain ⟨_, inData, reached⟩ := reaches_of_disassemble ok
  have isUsed (kind : LabelKind) {numeral : String}
      (listed : (kind.stem ++ numeral).toList ∈ Text.lines (listing.text layout).toList) :
      ∃ origin, numeral = Text.hex origin ∧
        listing.labels.isUsed kind (Bank.localAddress origin) = true := by
    obtain ⟨_, _, origin, written, there, defined⟩ :=
      Listing.definition?_of_mem_lines reached files.words blanks listed
    obtain ⟨label, found, used, _⟩ := LabelMap.definition?_eq_some_iff.mp defined
    exact ⟨origin, written, by simpa [LabelMap.isUsed, there, found] using used⟩
  constructor
  · intro kind address label found unused listed
    obtain ⟨origin, there, named⟩ := reached.name_of_get? found
    rw [named, LabelKind.nameAt] at listed
    obtain ⟨origin', written, used⟩ := isUsed kind listed
    obtain rfl := Text.hex_injective written
    simp [LabelMap.isUsed, there, found, Label.isUsed, unused] at used
  · rintro numeral ⟨code, data⟩
    obtain ⟨origin, rfl, codeUsed⟩ := isUsed .code code
    obtain ⟨origin', written, dataUsed⟩ := isUsed .data data
    obtain rfl := Text.hex_injective written
    rw [reached.not_both_used codeUsed] at dataUsed
    cases dataUsed

/-- A jump to itself leaves no line for the data label at its address. -/
theorem unused_labels_leave_no_line_of_self_jump :
    ∃ listing, disassemble (ByteArray.mk #[0x18, 0xfe]) .empty 0 {} = .ok listing ∧
      ∃ label, listing.labels.get? .data 0 = some label ∧ label.name = ".data_0" ∧
        label.usage = 0 ∧ ".data_0".toList ∉ Text.lines (listing.text ⟨"  ", true⟩).toList := by
  have run : (disassemble (ByteArray.mk #[0x18, 0xfe]) .empty 0 {}).map
      (fun listing => (listing.labels.get? .data 0).map fun label => (label.name, label.usage)) =
      .ok (some (".data_0", 0)) := by
    cbv
  cases ok : disassemble (ByteArray.mk #[0x18, 0xfe]) .empty 0 {} with
  | error error => rw [ok] at run; cases run
  | ok listing =>
      rw [ok] at run
      obtain ⟨label, found, same⟩ := Option.map_eq_some_iff.mp (Except.ok.inj run)
      obtain ⟨named, unused⟩ := Prod.mk.inj same
      have blanks : Layout.IndentsByBlanks ⟨"  ", true⟩ := by simp [Layout.IndentsByBlanks]
      have unwritten := (unused_labels_leave_no_line .none blanks ok).1 _ _ _ found unused
      rw [named] at unwritten
      exact ⟨listing, rfl, label, found, named, unused, unwritten⟩

end Sm83
