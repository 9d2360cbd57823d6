import Sm83.Proofs.Listing.Operands

/-!
# Items as listings show them

Without names, the text of an item and the number of its bytes tell the bytes: two images that have
the same text at an offset, for as many bytes, agree on those bytes.
-/

namespace Sm83

attribute [ext] Template Instruction

/-! ## Templates of decoded instructions -/

namespace Instruction

variable {byte? byte?' : Nat → Option UInt8} {offset : Nat} {instruction instruction' : Instruction}

/-- An instruction without an operand is written as its encoding has it, or belongs to the extended
set. -/
theorem template_of_bare (decoded : decode? byte? offset = some instruction)
    (bare : instruction.operand = .none) :
    (instruction.size = 1 ∧ instruction.template = (Encoding.ofOpcode instruction.opcode).template ∧
        instruction.template.tail = none) ∨
      (instruction.size = 2 ∧ (Encoding.ofOpcode instruction.opcode).operand = .extended ∧
        ∃ value, instruction.template = .fixed (Encoding.extendedText value)) := by
  have bytes := (decode?_eq_some_iff.mp decoded).2
  rw [OperandBytes] at bytes
  simp only [size, Encoding.size]
  cases kind : (Encoding.ofOpcode instruction.opcode).operand <;>
    simp only [kind, OperandKind.size] at bytes ⊢
  case none =>
    refine .inl ⟨trivial, bytes.1, ?_⟩
    rw [bytes.1]
    exact (Encoding.tail_eq_none_iff _).mpr kind
  case extended =>
    obtain ⟨value, _, template, _⟩ := bytes
    exact .inr ⟨trivial, trivial, value, template⟩
  case byte | distance | highByte =>
    obtain ⟨_, _, _, operand⟩ := bytes
    rw [bare] at operand
    cases operand
  case word =>
    obtain ⟨_, _, _, _, _, operand⟩ := bytes
    rw [bare] at operand
    cases operand

/-- An instruction with an operand is written as its encoding has it, around a slot that can be
found again. -/
theorem template_of_operand (decoded : decode? byte? offset = some instruction)
    (slotted : instruction.operand ≠ .none) :
    2 ≤ instruction.size ∧ instruction.template = (Encoding.ofOpcode instruction.opcode).template ∧
      ∃ tail, instruction.template = .around instruction.template.head tail ∧
        Template.Clear instruction.template.head tail := by
  have bytes := (decode?_eq_some_iff.mp decoded).2
  have written : (Encoding.ofOpcode instruction.opcode).operand ≠ .none ∧
      instruction.template = (Encoding.ofOpcode instruction.opcode).template := by
    rw [OperandBytes] at bytes
    cases kind : (Encoding.ofOpcode instruction.opcode).operand <;> simp only [kind] at bytes
    case none => exact absurd bytes.2 slotted
    case extended =>
      obtain ⟨_, _, _, operand⟩ := bytes
      exact absurd operand slotted
    case byte | distance | highByte | word => exact ⟨by simp, bytes.1⟩
  obtain ⟨hasOperand, template⟩ := written
  refine ⟨?_, template, ?_⟩
  · simp only [size, Encoding.size]
    cases kind : (Encoding.ofOpcode instruction.opcode).operand <;> simp_all [OperandKind.size]
  · rw [template]
    cases tail : (Encoding.ofOpcode instruction.opcode).template.tail with
    | none => exact absurd ((Encoding.tail_eq_none_iff _).mp tail) hasOperand
    | some tail' => exact ⟨tail', by rw [Template.around, ← tail], Encoding.clear_of_tail tail⟩

theorem operand_injective {start : Nat} {text : String} (notTwo : Bank.ofOffset start ≠ 2)
    (notThree : Bank.ofOffset start ≠ 3) (decoded : decode? byte? offset = some instruction)
    (decoded' : decode? byte?' offset = some instruction')
    (sameOpcode : instruction.opcode = instruction'.opcode)
    (shown : Operand.Shown start offset instruction.operand text)
    (shown' : Operand.Shown start offset instruction'.operand text) :
    instruction.operand = instruction'.operand := by
  have bytes := (decode?_eq_some_iff.mp decoded).2
  have bytes' := (decode?_eq_some_iff.mp decoded').2
  rw [OperandBytes] at bytes bytes'
  rw [← sameOpcode] at bytes'
  cases kind : (Encoding.ofOpcode instruction.opcode).operand <;> simp only [kind] at bytes bytes'
  case none => rw [bytes.2, bytes'.2]
  case extended =>
    obtain ⟨_, _, _, operand⟩ := bytes
    obtain ⟨_, _, _, operand'⟩ := bytes'
    rw [operand, operand']
  case byte =>
    obtain ⟨_, _, _, operand⟩ := bytes
    obtain ⟨_, _, _, operand'⟩ := bytes'
    rw [operand] at shown ⊢
    rw [operand'] at shown' ⊢
    rw [shown.byte_injective shown']
  case highByte =>
    obtain ⟨_, _, _, operand⟩ := bytes
    obtain ⟨_, _, _, operand'⟩ := bytes'
    rw [operand] at shown ⊢
    rw [operand'] at shown' ⊢
    rw [shown.high_injective shown']
  case distance =>
    obtain ⟨_, value, _, operand⟩ := bytes
    obtain ⟨_, value', _, operand'⟩ := bytes'
    rw [operand] at shown ⊢
    rw [operand'] at shown' ⊢
    rw [shown.distance_injective (Opcode.signed_bounds value) (Opcode.signed_bounds value') shown']
  case word =>
    obtain ⟨_, low, high, _, _, operand⟩ := bytes
    obtain ⟨_, low', high', _, _, operand'⟩ := bytes'
    rw [operand] at shown ⊢
    rw [operand'] at shown' ⊢
    rw [shown.word_injective notTwo notThree (wordOf_lt low high) (wordOf_lt low' high') shown']

end Instruction

/-! ## How items are written -/

/-- How the item at an offset may be written in a listing without names. -/
inductive Item.Written (start : Nat) (byte? : Nat → Option UInt8) (offset : Nat) :
    Item → String → Prop where
  | data {value : UInt8} (read : byte? offset = some value) :
      Written start byte? offset (.data value) ("db $" ++ Text.hexWide 2 value.toNat)
  | bare {instruction : Instruction} {argument : Option Argument}
      (decoded : Instruction.decode? byte? offset = some instruction)
      (noOperand : instruction.operand = .none) :
      Written start byte? offset (.code instruction argument) instruction.template.head
  | filled {instruction : Instruction} {argument : Option Argument} {shown : String}
      (decoded : Instruction.decode? byte? offset = some instruction)
      (shows : Operand.Shown start offset instruction.operand shown) :
      Written start byte? offset (.code instruction argument) (instruction.template.fill shown)

namespace Item.Written

variable {start : Nat} {byte? byte?' : Nat → Option UInt8} {offset : Nat} {text : String}
  {instruction instruction' : Instruction}

theorem eq_of_bare (decoded : Instruction.decode? byte? offset = some instruction)
    (decoded' : Instruction.decode? byte?' offset = some instruction')
    (noOperand : instruction.operand = .none) (noOperand' : instruction'.operand = .none)
    (sameSize : instruction.size = instruction'.size)
    (same : instruction.template.head = instruction'.template.head) :
    instruction = instruction' := by
  have sameOperand := noOperand.trans noOperand'.symm
  rcases Instruction.template_of_bare decoded noOperand with
    ⟨one, template, tail⟩ | ⟨two, extended, value, template⟩
  · rcases Instruction.template_of_bare decoded' noOperand' with ⟨_, template', tail'⟩ | ⟨two', _⟩
    · have sameTemplate := Template.ext same (tail.trans tail'.symm)
      have sameOpcode : instruction.opcode = instruction'.opcode := by
        apply Encoding.opcode_injective sameSize
        rw [← template, ← template', sameTemplate]
      exact Instruction.ext sameOpcode sameTemplate sameOperand
    · omega
  · rcases Instruction.template_of_bare decoded' noOperand' with
      ⟨one', _⟩ | ⟨_, extended', value', template'⟩
    · omega
    · have sameTemplate : instruction.template = instruction'.template :=
        Template.ext same (by rw [template, template']; rfl)
      rw [Encoding.operand_eq_extended_iff] at extended extended'
      exact Instruction.ext (extended.trans extended'.symm) sameTemplate sameOperand

theorem operand_ne_none {operand : Operand} {shown : String}
    (shows : Operand.Shown start offset operand shown) : operand ≠ .none := by
  rintro rfl
  cases shows

theorem bare_ne_filled {shown : String}
    (decoded : Instruction.decode? byte? offset = some instruction)
    (decoded' : Instruction.decode? byte?' offset = some instruction')
    (noOperand : instruction.operand = .none)
    (shows : Operand.Shown start offset instruction'.operand shown)
    (sameSize : instruction.size = instruction'.size) :
    instruction.template.head ≠ instruction'.template.fill shown := by
  intro same
  obtain ⟨large, _, tail, template', _⟩ :=
    Instruction.template_of_operand decoded' (operand_ne_none shows)
  rcases Instruction.template_of_bare decoded noOperand with ⟨one, _⟩ | ⟨_, _, value, template⟩
  · omega
  · obtain ⟨mark, isMark, starts⟩ := shows.marked.starts
    have lacks := Text.notMem_of_lacks (Encoding.lacks_extendedText value)
      (List.mem_cons_of_mem _ isMark)
    have written : mark ∈ shown.toList := List.mem_of_mem_head? starts
    rw [template, template'] at same
    simp only [Template.fixed, Template.fill, Template.around] at same
    rw [same] at lacks
    simp [written] at lacks

theorem eq_of_filled {shown shown' : String} (notTwo : Bank.ofOffset start ≠ 2)
    (notThree : Bank.ofOffset start ≠ 3)
    (decoded : Instruction.decode? byte? offset = some instruction)
    (decoded' : Instruction.decode? byte?' offset = some instruction')
    (shows : Operand.Shown start offset instruction.operand shown)
    (shows' : Operand.Shown start offset instruction'.operand shown')
    (sameSize : instruction.size = instruction'.size)
    (same : instruction.template.fill shown = instruction'.template.fill shown') :
    instruction = instruction' := by
  obtain ⟨_, encoded, tail, template, clear⟩ :=
    Instruction.template_of_operand decoded (operand_ne_none shows)
  obtain ⟨_, encoded', tail', template', clear'⟩ :=
    Instruction.template_of_operand decoded' (operand_ne_none shows')
  rw [template, template'] at same
  obtain ⟨sameTemplate, rfl⟩ := Template.fill_injective clear clear' shows.marked shows'.marked same
  rw [← template, ← template'] at sameTemplate
  have sameOpcode : instruction.opcode = instruction'.opcode := by
    apply Encoding.opcode_injective sameSize
    rw [← encoded, ← encoded', sameTemplate]
  have sameOperand :=
    Instruction.operand_injective notTwo notThree decoded decoded' sameOpcode shows shows'
  exact Instruction.ext sameOpcode sameTemplate sameOperand

theorem opcode_of_data {value : UInt8}
    (decoded : Instruction.decode? byte? offset = some instruction)
    (noOperand : instruction.operand = .none) (one : instruction.size = 1)
    (same : instruction.template.head = "db $" ++ Text.hexWide 2 value.toNat) :
    byte? offset = some value := by
  rw [Instruction.opcode_of_decode? decoded]
  rcases Instruction.template_of_bare decoded noOperand with ⟨_, template, _⟩ | ⟨two, _⟩
  · rw [template] at same
    rw [Encoding.opcode_of_unknown same]
  · omega

theorem byte?_eq (notTwo : Bank.ofOffset start ≠ 2) (notThree : Bank.ofOffset start ≠ 3)
    {item item' : Item} (written : Written start byte? offset item text)
    (written' : Written start byte?' offset item' text) (sameSize : item.size = item'.size)
    {k : Nat} (inside : k < item.size) : byte? (offset + k) = byte?' (offset + k) := by
  generalize same : text = text' at written'
  cases written with
  | data read =>
      obtain rfl : k = 0 := by simpa [Item.size] using inside
      cases written' with
      | data read' =>
          have numerals := (String.append_right_inj _).mp same
          have sameValue := UInt8.toNat_inj.mp (Text.hexWide_injective numerals)
          exact read.trans (sameValue ▸ read'.symm)
      | bare decoded' noOperand' =>
          exact read.trans (opcode_of_data decoded' noOperand' sameSize.symm same.symm).symm
      | filled decoded' shows' =>
          have large := (Instruction.template_of_operand decoded' (operand_ne_none shows')).1
          simp only [Item.size] at sameSize
          omega
  | bare decoded noOperand =>
      cases written' with
      | data read' =>
          obtain rfl : k = 0 := by
            rw [sameSize] at inside
            simpa [Item.size] using inside
          exact (opcode_of_data decoded noOperand sameSize same).trans read'.symm
      | bare decoded' noOperand' =>
          have sameInstruction := eq_of_bare decoded decoded' noOperand noOperand' sameSize same
          exact Instruction.byte?_eq_of_decode? decoded (sameInstruction ▸ decoded') inside
      | filled decoded' shows' =>
          exact absurd same (bare_ne_filled decoded decoded' noOperand shows' sameSize)
  | filled decoded shows =>
      cases written' with
      | data read' =>
          have large := (Instruction.template_of_operand decoded (operand_ne_none shows)).1
          simp only [Item.size] at sameSize
          omega
      | bare decoded' noOperand' =>
          exact absurd same.symm (bare_ne_filled decoded' decoded noOperand' shows sameSize.symm)
      | filled decoded' shows' =>
          have sameInstruction :=
            eq_of_filled notTwo notThree decoded decoded' shows shows' sameSize same
          exact Instruction.byte?_eq_of_decode? decoded (sameInstruction ▸ decoded') inside

end Item.Written

/-! ## Items of a run -/

namespace Sweep

variable {sweep : Sweep} {steps : List Step} {cursor : Cursor} {ended : Bool} {step : Step}

theorem Reaches.shown_of_label (reached : sweep.Reaches steps cursor ended) (kind : LabelKind)
    (offset word : Nat) : Operand.Shown sweep.start offset (.word word)
      ((Argument.label kind word).text cursor.labels) := by
  rw [Argument.text_label]
  cases defined : cursor.labels.definition? kind word with
  | none => exact .number word
  | some name =>
      obtain ⟨origin, there, rfl⟩ := reached.name_of_definition? defined
      exact .label there

theorem Reaches.shown_of_word (reached : sweep.Reaches steps cursor ended)
    (nameless : sweep.names = .empty) (labels : LabelMap) (opcode : UInt8) (offset word : Nat) :
    Operand.Shown sweep.start offset (.word word)
      ((sweep.referWord labels opcode word).1.text cursor.labels) := by
  have noName : sweep.wordName? word = none := by simp [wordName?, nameless]
  simp only [referWord, noName]
  split
  · exact .routine word
  split
  · exact reached.shown_of_label .code offset word
  split
  · exact .number word
  · exact reached.shown_of_label .data offset word

theorem Reaches.shown_of_jump (reached : sweep.Reaches steps cursor ended) (passed : step ∈ steps)
    {instruction : Instruction} {argument : Option Argument} {distance : Int}
    (code : step.item = .code instruction argument)
    (jump : instruction.operand = .distance distance) :
    ∃ shown, argument = some shown ∧
      Operand.Shown sweep.start step.offset (.distance distance) (shown.text cursor.labels) := by
  cases landing : jumpTarget step.offset distance with
  | negSucc n =>
      have outside : jumpTarget step.offset distance < 0 := by
        rw [landing]
        exact Int.negSucc_lt_zero n
      exact ⟨_, reached.relative_of_neg passed code jump outside, .outside distance⟩
  | ofNat target =>
      have goes : step.target? = some target := by
        simp only [Step.target?, code]
        exact Instruction.target?_eq_some_iff.mpr ⟨distance, jump, landing⟩
      rcases Nat.lt_or_ge target sweep.start with before | inside
      · obtain ⟨_, item⟩ := reached.routine_of_behind passed goes before
        rw [code] at item
        cases item
        exact ⟨_, rfl, .behind landing⟩
      · obtain ⟨⟨_, item⟩, label, found, positive, origin, _, _, there, name⟩ :=
          reached.jump_label passed goes inside
        rw [code] at item
        cases item
        have defined : cursor.labels.definition? .code (Bank.localAddress target) =
            some (LabelKind.code.nameAt origin) :=
          LabelMap.definition?_eq_some_iff.mpr
            ⟨label, found, by simpa [Label.isUsed] using positive, name⟩
        refine ⟨_, rfl, ?_⟩
        rw [Argument.text_label, defined]
        exact .ahead landing there

/-- Without names, the row of an item is the indent and a text that the item may be written as. -/
theorem Reaches.written (reached : sweep.Reaches steps cursor ended)
    (nameless : sweep.names = .empty) (layout : Layout) (passed : step ∈ steps) :
    ∃ text, step.item.text cursor.labels layout = layout.indent ++ text ∧
      Item.Written sweep.start sweep.byte? step.offset step.item text := by
  obtain ⟨_, before, _, _, _, _, passes, _⟩ := reached.passing passed
  have takes := passes.takes
  cases code : step.item with
  | data value =>
      rw [code] at takes
      exact ⟨_, rfl, by simpa [instructionText, Item.dataTemplate, Template.around, Template.fill,
        Argument.text, ← String.append_assoc] using .data takes.1⟩
  | code instruction argument =>
      rw [code] at takes
      obtain ⟨decoded, referred⟩ := takes
      have refers := congrArg Prod.fst referred
      simp only [refer] at refers
      have filled {shown : Argument} (given : argument = some shown)
          (shows : Operand.Shown sweep.start step.offset instruction.operand
            (shown.text cursor.labels)) :
          ∃ text, (Item.code instruction argument).text cursor.labels layout =
              layout.indent ++ text ∧
            Item.Written sweep.start sweep.byte? step.offset (.code instruction argument) text :=
        ⟨_, by rw [given, Item.text, instructionText], .filled decoded shows⟩
      cases operand : instruction.operand with
      | none =>
          simp only [operand] at refers
          subst refers
          have tail : instruction.template.tail = none := by
            rcases Instruction.template_of_bare decoded operand with ⟨_, _, tail⟩ | ⟨_, _, _, fixed⟩
            · exact tail
            · rw [fixed]
              rfl
          refine ⟨instruction.template.head, ?_, .bare decoded operand⟩
          simp [Item.text, instructionText, Template.text, tail]
      | byte value =>
          simp only [operand] at refers
          exact filled refers.symm (operand ▸ .byte value)
      | high address =>
          simp only [operand, nameless, Names.at?_empty] at refers
          exact filled refers.symm (operand ▸ .high address)
      | distance distance =>
          obtain ⟨shown, given, shows⟩ := reached.shown_of_jump passed code operand
          exact filled given (operand ▸ shows)
      | word word =>
          simp only [operand] at refers
          exact filled refers.symm (operand ▸ reached.shown_of_word nameless _ _ _ word)

end Sweep

end Sm83
