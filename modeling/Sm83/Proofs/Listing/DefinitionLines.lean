import Mathlib
import Sm83.Proofs.Listing.Readback

/-!
# Rows that define labels

The rows of a text that define labels are, item by item, the label in use at the address of the
item. A sweep that comes to an address for the second time finds the label it made there itself, so
the same row is written again: `definitions_nodup_iff` says that this is the only way to define a
label twice.
-/

namespace Sm83

/-! ## Definitions among rows -/

/-- Whether a row is the definition of a label. -/
def Text.isDefinition (row : String) : Bool :=
  decide (LabelKind.code.stem.toList <+: row.toList) ||
    decide (LabelKind.data.stem.toList <+: row.toList)

/-- The rows of a text that are definitions of labels. -/
def Text.definitions (text : String) : List String :=
  (splitRows text).filter isDefinition

theorem LabelKind.isDefinition_stem_append (kind : LabelKind) (behind : String) :
    Text.isDefinition (kind.stem ++ behind) = true := by
  cases kind <;> simp [Text.isDefinition]

theorem LabelKind.isDefinition_nameAt (kind : LabelKind) (offset : Nat) :
    Text.isDefinition (kind.nameAt offset) = true :=
  kind.isDefinition_stem_append _

theorem Text.isDefinition_eq_false {row : String} (noDot : row.toList.head? ≠ some '.') :
    isDefinition row = false := by
  have noStem {stem : List Char} (dot : stem.head? = some '.') : ¬stem <+: row.toList := by
    rintro ⟨rest, written⟩
    rw [← written, List.head?_append, dot] at noDot
    exact noDot rfl
  have code : LabelKind.code.stem.toList.head? = some '.' := by decide
  have data : LabelKind.data.stem.toList.head? = some '.' := by decide
  simp [isDefinition, noStem code, noStem data]

/-- Items are indented by spaces and tabs only, if at all. -/
def Layout.IndentsByBlanks (layout : Layout) : Prop :=
  ∀ c ∈ layout.indent.toList, c = ' ' ∨ c = '\t'

theorem Layout.IndentsByBlanks.newline_notMem {layout : Layout} (blanks : layout.IndentsByBlanks) :
    '\n' ∉ layout.indent.toList := by
  intro indented
  exact absurd (blanks '\n' indented) (by decide)

theorem Instruction.dot_notMem_head {byte? : Nat → Option UInt8} {offset : Nat}
    {instruction : Instruction} (decoded : decode? byte? offset = some instruction) :
    instruction.template.head ≠ "" ∧ '.' ∉ instruction.template.head.toList := by
  have bytes := (decode?_eq_some_iff.mp decoded).2
  rw [OperandBytes] at bytes
  cases kind : (Encoding.ofOpcode instruction.opcode).operand <;> simp only [kind] at bytes
  case extended =>
    obtain ⟨value, _, template, _⟩ := bytes
    rw [template]
    exact ⟨Encoding.extendedText_ne_empty value,
      Text.notMem_of_lacks (Encoding.lacks_extendedText value) (by decide)⟩
  case none | byte | distance | highByte | word =>
    rw [bytes.1]
    exact Encoding.dot_notMem_head (by simp [kind])

theorem instructionText_eq_append (labels : LabelMap) (template : Template)
    (argument : Option Argument) :
    ∃ rest, instructionText labels template argument = template.head ++ rest := by
  obtain ⟨head, tail⟩ := template
  cases argument <;> cases tail <;>
    simp only [instructionText, Template.text, Template.fill, String.append_assoc]
  case none.none | some.none => exact ⟨"", by simp⟩
  case none.some | some.some => exact ⟨_, rfl⟩

namespace Sweep

variable {sweep : Sweep} {steps : List Step} {cursor : Cursor} {step : Step} {ended : Bool}

theorem Reaches.isDefinition_item (reached : sweep.Reaches steps cursor ended)
    {layout : Layout} (blanks : layout.IndentsByBlanks) (passed : step ∈ steps)
    (labels : LabelMap) : Text.isDefinition (step.item.text labels layout) = false := by
  obtain ⟨head, rest, text, notEmpty, noDot⟩ : ∃ head rest,
      step.item.text labels layout = layout.indent ++ (head ++ rest) ∧ head ≠ "" ∧
        '.' ∉ head.toList := by
    have reads := reached.reads passed
    rw [Reads] at reads
    cases kind : step.item with
    | data value =>
        obtain ⟨rest, text⟩ :=
          instructionText_eq_append labels Item.dataTemplate (some (.byte value))
        exact ⟨_, rest, congrArg (layout.indent ++ ·) text, by decide, by decide⟩
    | code instruction argument =>
        rw [kind] at reads
        obtain ⟨rest, text⟩ := instructionText_eq_append labels instruction.template argument
        exact ⟨_, rest, congrArg (layout.indent ++ ·) text, Instruction.dot_notMem_head reads⟩
  apply Text.isDefinition_eq_false
  intro dot
  rw [text, String.toList_append, String.toList_append] at dot
  cases indent : layout.indent.toList with
  | cons c indented =>
      rw [indent] at dot
      cases dot
      exact absurd (blanks '.' (indent ▸ List.mem_cons_self)) (by decide)
  | nil =>
      rw [indent, List.nil_append] at dot
      cases written : head.toList with
      | nil => exact notEmpty (String.toList_eq_nil_iff.mp written)
      | cons c word =>
          rw [written] at dot noDot
          cases dot
          exact noDot List.mem_cons_self

end Sweep

namespace Listing

variable {sweep : Sweep} {listing : Listing} {layout : Layout} {inData ended : Bool}

/-- The definitions in the text of a listing are, item by item, those shown at its address. -/
theorem definitions_text_of_blanks (reached : sweep.Reaches listing.steps.toList
      ⟨listing.endOffset, inData, listing.labels⟩ ended)
    (words : sweep.names.Words) (blanks : layout.IndentsByBlanks) :
    Text.definitions (listing.text layout) =
      listing.steps.toList.flatMap (Step.definitions listing.labels) := by
  have header : Text.isDefinition listing.headerRow = false := by
    simp [Text.isDefinition, LabelKind.stem, headerRow, routineName]
  have trailer : Text.isDefinition (listing.trailer layout) = false := by
    rw [Listing.trailer]
    split <;> simp [Text.isDefinition, LabelKind.stem]
  rw [Text.definitions, splitRows_text reached words blanks.newline_notMem, rows, rowsThrough]
  simp only [List.filter_append, List.filter_cons, header, trailer, Bool.false_eq_true, if_false,
    List.filter_nil, List.append_nil]
  have empty : Text.isDefinition "" = false := by simp [Text.isDefinition, LabelKind.stem]
  rw [Step.filter_rowsOf empty]
  apply List.flatMap_congr
  intro step passed
  have here : (step.definitions listing.labels).filter Text.isDefinition =
      step.definitions listing.labels := by
    apply List.filter_eq_self.mpr
    intro name shown
    obtain ⟨kind, defined⟩ := Step.mem_definitions.mp shown
    obtain ⟨origin, _, rfl⟩ := reached.name_of_definition? defined
    exact kind.isDefinition_nameAt origin
  rw [Step.rows_eq, List.filter_append, here]
  simp [reached.isDefinition_item blanks passed]

theorem definitions_text (reached : sweep.Reaches listing.steps.toList
      ⟨listing.endOffset, inData, listing.labels⟩ ended)
    (words : sweep.names.Words) (tab : layout.indent = "\t") :
    Text.definitions (listing.text layout) =
      listing.steps.toList.flatMap (Step.definitions listing.labels) :=
  definitions_text_of_blanks reached words (by simp [Layout.IndentsByBlanks, tab])

end Listing

/-! ## Addresses visited again -/

namespace Sweep

variable {sweep : Sweep} {steps : List Step} {cursor behind : Cursor} {step : Step} {ended : Bool}

theorem Reaches.isUsed_of_visited_again {earlier later : List Step}
    (reached : sweep.Reaches (earlier ++ step :: later) cursor ended)
    (visited : Visited earlier (Bank.localAddress step.offset)) :
    cursor.labels.isUsed .code (Bank.localAddress step.offset) = true := by
  obtain ⟨before, behind, ended', reached', turned, stayed⟩ := reached.at_step
  obtain ⟨known, foundKnown⟩ :=
    LabelMap.contains_iff.mp ((reached'.contains_code_iff _).mpr (.inl visited))
  obtain ⟨label, found, keeps⟩ := (passes_of_turn turned).get?_code_here
  obtain ⟨last, foundLast, keeps'⟩ := stayed _ label found
  have referenced : 0 < (announcedCode before.labels step.offset).usage := by
    simp [announcedCode, foundKnown, Label.referenced, Label.passed]
  exact LabelMap.isUsed_iff.mpr ⟨last, foundLast,
    Nat.lt_of_lt_of_le referenced (keeps.trans keeps').usage_le⟩

theorem Reaches.nodup_definitions (reached : sweep.Reaches steps cursor ended) (step : Step) :
    (step.definitions cursor.labels).Nodup := by
  cases empty : step.definitions cursor.labels with
  | nil => exact List.nodup_nil
  | cons name rest =>
      obtain ⟨kind, defined⟩ := Step.mem_definitions.mp (empty ▸ List.mem_cons_self)
      have single := reached.definitions_eq_singleton defined
      rw [← empty, Step.definitions, single]
      exact List.nodup_singleton name

/-- No definition is shown twice exactly if no address was visited twice. -/
theorem Reaches.nodup_flatMap_definitions_iff (reached : sweep.Reaches steps cursor ended) :
    (steps.flatMap (Step.definitions cursor.labels)).Nodup ↔
      (steps.map fun step => Bank.localAddress step.offset).Nodup := by
  have addresses : (steps.map fun step => Bank.localAddress step.offset).Nodup ↔
      steps.Pairwise fun step later =>
        Bank.localAddress step.offset ≠ Bank.localAddress later.offset :=
    List.pairwise_map
  rw [List.nodup_flatMap, addresses]
  constructor
  · rintro ⟨_, apart⟩
    rw [List.pairwise_iff_forall_sublist] at *
    intro step again both same
    obtain ⟨earlier, rest, rfl, passed, inRest⟩ := List.cons_sublist_iff.mp both
    obtain ⟨between, later, rfl⟩ := List.append_of_mem (List.singleton_sublist.mp inRest)
    rw [← List.append_assoc] at reached
    have used := reached.isUsed_of_visited_again ⟨step, List.mem_append_left _ passed, same⟩
    obtain ⟨label, found, isUsed⟩ := LabelMap.isUsed_iff.mp used
    have defined : cursor.labels.definition? .code (Bank.localAddress again.offset) =
        some label.name :=
      LabelMap.definition?_eq_some_iff.mpr ⟨label, found, by simpa [Label.isUsed] using isUsed, rfl⟩
    exact apart both (Step.mem_definitions.mpr ⟨.code, same ▸ defined⟩)
      (Step.mem_definitions.mpr ⟨.code, defined⟩)
  · intro distinct
    refine ⟨fun step _ => reached.nodup_definitions step, distinct.imp ?_⟩
    intro step other apart name shown shown'
    obtain ⟨kind, defined⟩ := Step.mem_definitions.mp shown
    obtain ⟨kind', defined'⟩ := Step.mem_definitions.mp shown'
    obtain ⟨origin, there, named⟩ := reached.name_of_definition? defined
    obtain ⟨origin', there', named'⟩ := reached.name_of_definition? defined'
    obtain ⟨_, rfl⟩ := LabelKind.nameAt_injective (named.symm.trans named')
    exact apart (there.symm.trans there')

/-- A run that stays below the end of the window, or comes less than a bank far, visits no address
twice. -/
theorem Reaches.nodup_addresses_of_short (reached : sweep.Reaches steps cursor ended)
    (short : cursor.offset ≤ max Bank.windowEnd (sweep.start + Bank.size)) :
    (steps.map fun step => Bank.localAddress step.offset).Nodup := by
  rw [List.Nodup, List.pairwise_map]
  apply reached.tiles.pairwise_lt.imp_of_mem
  intro step later passed passed' before same
  have bounds := reached.tiles.bounds passed
  have bounds' := reached.tiles.bounds passed'
  have pos := later.item.size_pos
  rcases le_max_iff.mp short with below | near
  · rw [Bank.localAddress_eq_self (by omega), Bank.localAddress_eq_self (by omega)] at same
    omega
  · have := Bank.eq_of_localAddress_of_near same (Nat.le_of_lt before) (by omega)
    omega

end Sweep

/-! ## Runs over zeros -/

/-- An image of nothing but zeros, which all are instructions of one byte. -/
def zeros (count : Nat) : ByteArray :=
  ⟨Array.replicate count 0⟩

namespace Plain

variable {count start : Nat}

theorem size_zeros (count : Nat) : (zeros count).size = count := by
  simp [zeros, ByteArray.size]

theorem getElem?_zeros {offset : Nat} (inside : offset < count) :
    (zeros count)[offset]? = some 0 := by
  have below : offset < (zeros count).size := by rwa [size_zeros]
  rw [getElem?_pos (zeros count) offset below]
  simp [zeros, ByteArray.getElem_eq_getElem_data]

theorem ceiling_zeros (small : count ≤ Bank.capacity) : ceiling (zeros count) = count := by
  rw [ceiling, size_zeros, Nat.min_eq_left small]

theorem sizeAt_zeros {offset : Nat} (inside : offset < count) :
    sizeAt (zeros count) offset = 1 := by
  rw [sizeAt, getElem?_zeros inside]
  rfl

theorem boundary_zeros {i : Nat} (inside : start + i ≤ count) :
    boundary (zeros count) start i = start + i := by
  induction i with
  | zero => rfl
  | succ i ih =>
      rw [boundary, ih (by omega), sizeAt_zeros (by omega)]
      omega

theorem fits_zeros (small : count ≤ Bank.capacity) {n : Nat} (below : start + n < count) :
    ∀ i ≤ n, Fits (zeros count) (boundary (zeros count) start i) := by
  intro i passed
  rw [Fits, ceiling_zeros small, boundary_zeros (by omega), sizeAt_zeros (by omega)]
  omega

theorem le_boundary_of_mayEnd_zeros (small : count ≤ Bank.capacity) {stop n : Nat}
    (may : MayEnd (zeros count) start { stop := some stop, hardStop := true } n) :
    stop ≤ boundary (zeros count) start (n + 1) := by
  obtain ⟨fits, ⟨_, stopped⟩ | ⟨⟨opcode, isEnd, read⟩, _⟩⟩ := may
  · exact stopped
  · have here := (fits n (Nat.le_refl n)).1
    rw [ceiling_zeros small] at here
    rw [getElem?_zeros here] at read
    cases read
    exact absurd isEnd (by decide)

theorem size_of_standsFor_zeros {names : Names} {options : Options} {step : Step}
    (stands : step.StandsFor ⟨zeros count, names, start, options⟩) (inside : step.offset < count) :
    step.item.size = 1 := by
  rw [Step.StandsFor] at stands
  split at stands
  · exact stands.1.trans (sizeAt_zeros inside)
  · exact stands.1

theorem disassemble_zeros (names : Names) (inside : start < count) (small : count ≤ Bank.capacity) :
    ∃ listing, disassemble (zeros count) names start { stop := some count, hardStop := true } =
        .ok listing ∧
      ∀ offset, start ≤ offset → offset < count →
        ∃ step ∈ listing.steps.toList, step.offset = offset := by
  have belowCeiling : start < ceiling (zeros count) := by rwa [ceiling_zeros small]
  let options : Options := { stop := some count, hardStop := true }
  have noData : options.allowData = false := rfl
  have stopInside : ∀ stop, options.stop = some stop → stop ≤ Bank.capacity := by
    rintro stop ⟨⟩
    exact small
  rcases disassemble_cases names belowCeiling noData stopInside with
    ⟨n, least, listing, ok, ends⟩ | ⟨never, _⟩
  · refine ⟨listing, ok, fun offset above below => ?_⟩
    obtain ⟨_, inData, reached⟩ := reaches_of_disassemble ok
    have atEnd : count ≤ listing.endOffset := ends ▸ le_boundary_of_mayEnd_zeros small least.1
    obtain ⟨step, passed, above', below'⟩ :=
      reached.tiles.covers above (Nat.lt_of_lt_of_le below atEnd)
    have stands := (reached.tiling (Nat.le_of_lt belowCeiling)).standsFor step passed
    have one := size_of_standsFor_zeros stands (by omega)
    exact ⟨step, passed, by omega⟩
  · obtain ⟨n, rfl⟩ := Nat.exists_eq_add_of_lt inside
    have stopped : start + n + 1 ≤ boundary (zeros (start + n + 1)) start (n + 1) := by
      rw [boundary_zeros (by omega)]
      omega
    exact absurd ⟨fits_zeros small (by omega), .inl ⟨rfl, stopped⟩⟩ (never n)

end Plain

/-! ## Labels defined once -/

/-- The text of a listing defines no label twice exactly if its items are at different addresses.
That is so up to the end of the window, and within the size of a bank. -/
theorem definitions_nodup_iff {image : ByteArray} {names : Names} {start : Nat}
    {options : Options} {listing : Listing} {layout : Layout} (files : names.FromFiles)
    (tab : layout.indent = "\t") (ok : disassemble image names start options = .ok listing) :
    ((Text.definitions (listing.text layout)).Nodup ↔
      (listing.steps.toList.map fun step => Bank.localAddress step.offset).Nodup) ∧
    (listing.endOffset ≤ max Bank.windowEnd (start + Bank.size) →
      (Text.definitions (listing.text layout)).Nodup) := by
  obtain ⟨_, inData, reached⟩ := reaches_of_disassemble ok
  rw [Listing.definitions_text reached files.words tab]
  have exactly := reached.nodup_flatMap_definitions_iff
  exact ⟨exactly, fun short => exactly.mpr (reached.nodup_addresses_of_short short)⟩

/-- A jump to itself is listed below the only definition of its label. -/
theorem definitions_nodup_of_self_jump :
    ∃ listing, disassemble (ByteArray.mk #[0x18, 0xfe]) .empty 0 {} = .ok listing ∧
      listing.endOffset = 2 ∧ (Text.definitions (listing.text {})).Nodup := by
  have run : (disassemble (ByteArray.mk #[0x18, 0xfe]) .empty 0 {}).map Listing.endOffset =
      .ok 2 := by
    cbv
  cases ok : disassemble (ByteArray.mk #[0x18, 0xfe]) .empty 0 {} with
  | error error => rw [ok] at run; cases run
  | ok listing =>
      rw [ok] at run
      have ends : listing.endOffset = 2 := Except.ok.inj run
      have once : listing.endOffset ≤ max Bank.windowEnd (0 + Bank.size) →
          (Text.definitions (listing.text {})).Nodup :=
        (definitions_nodup_iff .none rfl ok).2
      exact ⟨listing, rfl, ends, once (by rw [ends]; decide)⟩

/-- A run over a whole bank and one byte more comes to the start of the window again, and the label
there is defined again. -/
theorem label_defined_twice :
    ∃ listing, disassemble (zeros 0x8001) .empty 0x4000
        { stop := some 0x8001, hardStop := true } = .ok listing ∧
      ¬(Text.definitions (listing.text {})).Nodup := by
  have inside : 0x4000 < 0x8001 := by decide
  have small : 0x8001 ≤ Bank.capacity := by decide
  obtain ⟨listing, ok, visits⟩ := Plain.disassemble_zeros .empty inside small
  refine ⟨listing, ok, fun once => ?_⟩
  obtain ⟨_, inData, reached⟩ := reaches_of_disassemble ok
  rw [Listing.definitions_text reached Names.words_empty rfl,
    reached.nodup_flatMap_definitions_iff] at once
  obtain ⟨step, passed, here⟩ := visits 0x4000 (by decide) (by decide)
  obtain ⟨again, passed', here'⟩ := visits 0x8000 (by decide) (by decide)
  have same := List.inj_on_of_nodup_map once passed passed' (by rw [here, here']; decide)
  rw [same, here'] at here
  cases here

end Sm83
