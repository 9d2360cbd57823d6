import Mathlib
import Sm83.Proofs.Sweep.DataLabels
import Sm83.Proofs.Sweep.Outcome

/-!
# Stretches of data

A sweep turns to data only behind a jump or return without a condition, where an operand loaded the
address and nothing jumps to it. It stays with data up to the next address that has a code label,
and there it turns back to instructions. `data_stretches` says this of every stretch of a run.
-/

namespace Sm83

/-! ## Stretches -/

/-- The byte at an offset was passed as data. -/
def PassedAsData (steps : List Step) (offset : Nat) : Prop :=
  ∃ step ∈ steps, step.offset = offset ∧ step.item.isData = true

/-- All bytes from one offset to another were passed as data, but neither the byte before them nor
the byte behind them was. -/
structure DataStretch (steps : List Step) (first behind : Nat) : Prop where
  nonempty : first < behind
  inside : ∀ offset, first ≤ offset → offset < behind → PassedAsData steps offset
  before : ∀ offset, offset + 1 = first → ¬PassedAsData steps offset
  behind : ¬PassedAsData steps behind

/-- An instruction has an address as its word; it is no call and no jump, and no name is known for
the address. -/
def Step.HasWord (sweep : Sweep) (step : Step) (address : Nat) : Prop :=
  ∃ instruction argument, step.item = .code instruction argument ∧
    instruction.operand = .word address ∧ Opcode.isCall instruction.opcode = false ∧
    Opcode.isJump instruction.opcode = false ∧ sweep.wordName? address = none

theorem passedAsData_iff_mem {steps : List Step} {offset : Nat} :
    PassedAsData steps offset ↔
      (offset, true) ∈ steps.map fun step => (step.offset, step.item.isData) := by
  simp [PassedAsData]

theorem Item.isData_eq_false_iff {item : Item} :
    item.isData = false ↔ ∃ instruction argument, item = .code instruction argument := by
  cases item <;> simp [isData]

theorem Step.behind_of_isData {step : Step} (data : step.item.isData = true) :
    step.offset + step.item.size = step.offset + 1 := by
  cases kind : step.item with
  | code instruction argument =>
      rw [kind] at data
      cases data
  | data value => rfl

namespace Sweep

variable {sweep : Sweep} {cursor behind : Cursor} {step : Step} {steps : List Step} {ended : Bool}

/-! ## Turning to data and back -/

/-- A turn that goes on leaves the cursor in data exactly if no code label is at the next address,
and the item was data already or ends control flow in front of data that is still missing. -/
theorem inData_of_turn (turned : (sweep.turn cursor).passed? = some (step, behind, false)) :
    behind.inData = true ↔
      behind.labels.contains .code (Bank.localAddress behind.offset) = false ∧
        (cursor.inData = true ∨
          (Opcode.endsFlow step.item.firstByte = true ∧ sweep.options.allowData = true ∧
            behind.labels.contains .data (Bank.localAddress behind.offset) = true ∧
            behind.labels.allDefined .data = false)) := by
  obtain ⟨_, taken, taking, settles⟩ := taken_of_turn turned
  have data := take?_inData taking
  have goesOn : sweep.onward step.item taken ≠ .stop := by
    intro stops
    simpa using settles.ended_iff.mpr stops
  rw [← settles.labels_eq, ← settles.offset_eq]
  rw [onward_of_not_stop goesOn] at settles
  have next : behind.inData = (taken.inData ||
      (Opcode.endsFlow step.item.firstByte && sweep.entersData taken)) := by
    cases still : taken.inData <;> cases ends : Opcode.endsFlow step.item.firstByte <;>
      simp only [still, ends, Bool.or_false, Bool.or_true, Bool.false_eq_true, if_true,
        if_false] at settles <;>
      cases settles <;> simp [still]
  rw [next, data, entersData]
  cases taken.labels.contains .code (Bank.localAddress taken.offset) <;>
    simp [and_assoc]

/-! ## How data is entered -/

theorem Reaches.entered (reached : sweep.Reaches steps cursor false)
    (data : cursor.inData = true) :
    cursor.labels.contains .code (Bank.localAddress cursor.offset) = false ∧
      ∃ earlier opener, steps = earlier ++ [opener] ∧
        opener.offset + opener.item.size = cursor.offset ∧
        (opener.item.isData = true ∨
          (Opcode.endsFlow opener.item.firstByte = true ∧ sweep.options.allowData = true ∧
            Loaded steps (Bank.localAddress cursor.offset))) := by
  cases reached with
  | first => cases data
  | @pass earlier before _ opener _ reached turned =>
      have passes := passes_of_turn turned
      obtain ⟨unexplained, opened⟩ := (inData_of_turn turned).mp data
      refine ⟨unexplained, earlier, opener, rfl, passes.after_offset.symm, ?_⟩
      rcases opened with still | ⟨ends, allowed, missing, _⟩
      · exact .inl (passes.isData_eq.trans still)
      · have through := reached.pass turned
        exact .inr ⟨ends, allowed, (through.data_of_unexplained unexplained).1.mp missing⟩

theorem Reaches.code_of_left {earlier : List Step}
    (reached : sweep.Reaches (earlier ++ [step]) cursor false) (data : step.item.isData = true)
    (left : cursor.inData = false) :
    cursor.labels.contains .code (Bank.localAddress cursor.offset) = true := by
  generalize whole : earlier ++ [step] = steps at reached
  cases reached with
  | first => simp at whole
  | pass _ turned =>
      obtain ⟨_, rfl⟩ := List.append_singleton_inj.mp whole
      have still := (passes_of_turn turned).isData_eq.symm.trans data
      by_contra unexplained
      have stays := (inData_of_turn turned).mpr ⟨Bool.eq_false_iff.mpr unexplained, .inl still⟩
      rw [left] at stays
      cases stays

theorem Reaches.hasWord_of_loads (reached : sweep.Reaches steps cursor ended)
    (passed : step ∈ steps) {address : Nat} (loads : step.Loads address) :
    step.HasWord sweep address := by
  obtain ⟨instruction, kind⟩ := loads
  obtain ⟨_, labels, shown⟩ := reached.referred passed kind
  have given := givenAs_refer sweep labels step.offset instruction
  rw [shown] at given
  have isWord : instruction.operand = .word address := by
    generalize instruction.operand = operand at given
    cases given
    rfl
  refine ⟨instruction, _, kind, isWord, ?_⟩
  simp only [refer, isWord, referWord, Option.some.injEq] at shown
  cases named : sweep.wordName? address with
  | some name => simp [named] at shown
  | none =>
      cases routine : Opcode.isCall instruction.opcode || Opcode.isJump instruction.opcode with
      | true => simp [named, routine] at shown
      | false =>
          obtain ⟨noCall, noJump⟩ := Bool.or_eq_false_iff.mp routine
          exact ⟨noCall, noJump, rfl⟩

/-! ## A stretch of a run -/

variable {first last : Nat}

theorem Reaches.at_data (reached : sweep.Reaches steps cursor ended) {offset : Nat}
    (data : PassedAsData steps offset) :
    ∃ earlier step later before, steps = earlier ++ step :: later ∧ step.offset = offset ∧
      step.item.isData = true ∧ sweep.Reaches earlier before false ∧ before.offset = offset ∧
      before.inData = true := by
  obtain ⟨step, passed, here, isData⟩ := data
  obtain ⟨earlier, later, rfl⟩ := List.append_of_mem passed
  obtain ⟨before, behind, ended', reached', turned, _⟩ := reached.at_step
  have passes := passes_of_turn turned
  exact ⟨earlier, step, later, before, rfl, here, isData, reached', passes.offset_eq ▸ here,
    passes.isData_eq ▸ isData⟩

/-- A stretch is opened by a jump or return without a condition, in front of an address that an
earlier instruction loads. -/
theorem Reaches.opened (reached : sweep.Reaches steps cursor ended)
    (stretch : DataStretch steps first last) :
    sweep.options.allowData = true ∧
      (∃ opener ∈ steps, opener.offset + opener.item.size = first ∧
        opener.item.isData = false ∧ Opcode.endsFlow opener.item.firstByte = true) ∧
      ∃ load ∈ steps, load.offset < first ∧ load.HasWord sweep (Bank.localAddress first) := by
  obtain ⟨upTo, step, later, before, rfl, here, isData, reached', at', inData⟩ :=
    reached.at_data (stretch.inside first (Nat.le_refl _) stretch.nonempty)
  obtain ⟨_, earlier, opener, rfl, adjacent, opened⟩ := reached'.entered inData
  have openerPassed : opener ∈ (earlier ++ [opener]) ++ step :: later := by simp
  have codeOpener : opener.item.isData = false := by
    refine Bool.eq_false_iff.mpr fun data => ?_
    have size := Step.behind_of_isData data
    exact stretch.before opener.offset (by omega) ⟨opener, openerPassed, rfl, data⟩
  rcases opened with data | ⟨ends, allowed, load, loadPassed, loads⟩
  · rw [codeOpener] at data
    cases data
  · have passed := List.mem_append_left (step :: later) loadPassed
    have beforeStep := (reached'.tiles.bounds loadPassed).2
    have pos := load.item.size_pos
    rw [at'] at loads
    exact ⟨allowed, ⟨opener, openerPassed, adjacent.trans at', codeOpener, ends⟩, load, passed,
      by omega, reached.hasWord_of_loads passed loads⟩

theorem Reaches.not_asked_of_data (reached : sweep.Reaches steps cursor ended) {offset : Nat}
    (data : PassedAsData steps offset) {jump : Step} (passed : jump ∈ steps)
    (earlierJump : jump.offset < offset) {target : Nat} (goes : jump.target? = some target)
    (inside : sweep.start ≤ target) : Bank.localAddress target ≠ Bank.localAddress offset := by
  obtain ⟨earlier, step, later, before, rfl, rfl, _, reached', at', inData⟩ :=
    reached.at_data data
  have unexplained := (reached'.entered inData).1
  have inEarlier : jump ∈ earlier := by
    rcases List.mem_append.mp passed with inEarlier | behind
    · exact inEarlier
    · obtain ⟨_, rest⟩ := reached.tiles.around
      rcases List.mem_cons.mp behind with rfl | inLater
      · omega
      · have := (rest.bounds inLater).1
        omega
  intro same
  rw [at'] at unexplained
  rw [(reached'.contains_code_iff _).mpr (.inr ⟨jump, inEarlier, target, goes, inside, same⟩)]
    at unexplained
  cases unexplained

/-- Where a run goes on behind a stretch there is a code label when it gets there, and the next item
is an instruction. -/
theorem Reaches.closed (reached : sweep.Reaches steps cursor ended)
    (stretch : DataStretch steps first last) (goesOn : last < cursor.offset) :
    ∃ upTo landing later arrival, steps = upTo ++ landing :: later ∧ landing.offset = last ∧
      landing.item.isData = false ∧ sweep.Reaches upTo arrival false ∧ arrival.offset = last ∧
      arrival.labels.contains .code (Bank.localAddress last) = true := by
  have nonempty := stretch.nonempty
  obtain ⟨earlier, final, later, _, rfl, here, isData, _⟩ :=
    reached.at_data (stretch.inside (last - 1) (by omega) (by omega))
  have adjacent := Step.behind_of_isData isData
  cases later with
  | nil =>
      have atEnd := reached.tiles.around.2
      rw [Tiles] at atEnd
      omega
  | cons landing later =>
      have split : earlier ++ final :: landing :: later =
          (earlier ++ [final]) ++ landing :: later := by
        simp
      rw [split] at reached stretch
      obtain ⟨arrival, behind, ended', reached', turned, _⟩ := reached.at_step
      have passes := passes_of_turn turned
      have landed : landing.offset = last := by
        have := passes.offset_eq
        have := reached'.tiles.around.2
        rw [Tiles] at this
        omega
      have code : landing.item.isData = false := by
        refine Bool.eq_false_iff.mpr fun data => stretch.behind ?_
        exact ⟨landing, by simp, landed, data⟩
      refine ⟨earlier ++ [final], landing, later, arrival, split, landed, code, reached',
        passes.offset_eq.symm.trans landed, ?_⟩
      rw [← landed, passes.offset_eq]
      exact reached'.code_of_left isData (passes.isData_eq.symm.trans code)

end Sweep

/-! ## Stretches of data in a run -/

/-- Every stretch of data in a run starts behind a jump or return without a condition, at an address
that an earlier instruction loads. No jump that was passed before a byte of it goes to that byte,
and where the run goes on behind it, a code label is there and an instruction follows. -/
theorem data_stretches (image : ByteArray) (names : Names) (start : Nat) (options : Options)
    {first last : Nat}
    (stretch : DataStretch (Sweep.mk image names start options).run.steps.toList first last) :
    let sweep : Sweep := ⟨image, names, start, options⟩
    let steps := sweep.run.steps.toList
    options.allowData = true ∧
    (∃ opener ∈ steps, opener.offset + opener.item.size = first ∧
      ∃ instruction argument, opener.item = .code instruction argument ∧
        instruction.opcode ∈ Opcode.flowEnds) ∧
    (∃ load ∈ steps, load.offset < first ∧ load.HasWord sweep (Bank.localAddress first)) ∧
    (∀ offset, first ≤ offset → offset < last → ∀ jump ∈ steps, jump.offset < offset →
      ∀ target, jump.target? = some target → start ≤ target →
        Bank.localAddress target ≠ Bank.localAddress offset) ∧
    (last < sweep.run.cursor.offset →
      ∃ upTo landing later cursor, steps = upTo ++ landing :: later ∧ landing.offset = last ∧
        (∃ instruction argument, landing.item = .code instruction argument) ∧
        sweep.Reaches upTo cursor false ∧ cursor.offset = last ∧
        cursor.labels.contains .code (Bank.localAddress last) = true) := by
  intro sweep steps
  have reached : sweep.Reaches steps sweep.run.cursor sweep.run.finished := sweep.reaches_run
  obtain ⟨allowed, ⟨opener, passed, adjacent, code, ends⟩, load⟩ := reached.opened stretch
  refine ⟨allowed, ⟨opener, passed, adjacent, ?_⟩, load, ?_, fun goesOn => ?_⟩
  · obtain ⟨instruction, argument, kind⟩ := Item.isData_eq_false_iff.mp code
    rw [kind] at ends
    exact ⟨instruction, argument, kind, (Opcode.endsFlow_iff _).mp ends⟩
  · intro offset above below jump passed earlier target goes inside
    exact reached.not_asked_of_data (stretch.inside offset above below) passed earlier goes inside
  · obtain ⟨upTo, landing, later, cursor, split, landed, code, reached', at', label⟩ :=
      reached.closed stretch goesOn
    exact ⟨upTo, landing, later, cursor, split, landed, Item.isData_eq_false_iff.mp code, reached',
      at', label⟩

/-- A load of an address behind a return, and a jump to two bytes further on. -/
def loadAndJump : Sweep :=
  ⟨ByteArray.mk #[0x21, 0x06, 0x00, 0x18, 0x03, 0xc9, 0x12, 0x34, 0xc9], .empty, 0,
    { allowData := true }⟩

/-- The two bytes behind the return are data. -/
theorem data_stretches_of_load_and_jump :
    let sweep := loadAndJump
    let steps := sweep.run.steps.toList
    DataStretch steps 6 8 ∧ (∃ load ∈ steps, load.offset < 6 ∧ load.HasWord sweep 6) ∧
      ∃ landing ∈ steps, landing.offset = 8 ∧
        ∃ instruction argument, landing.item = .code instruction argument := by
  have run : (loadAndJump.run.steps.toList.map (fun step => (step.offset, step.item.isData)),
      loadAndJump.run.cursor.offset) =
      ([(0, false), (3, false), (5, false), (6, true), (7, true), (8, false)], 9) := by
    cbv
  obtain ⟨offsets, behind⟩ := Prod.mk.inj run
  have passed (offset : Nat) : PassedAsData loadAndJump.run.steps.toList offset ↔
      offset = 6 ∨ offset = 7 := by
    rw [passedAsData_iff_mem, offsets]
    simp
  have stretch : DataStretch loadAndJump.run.steps.toList 6 8 := by
    refine ⟨by decide, fun offset above below => ?_, fun offset adjacent => ?_, ?_⟩
    · exact (passed offset).mpr (by omega)
    · rw [passed]
      omega
    · simp [passed]
  obtain ⟨_, _, load, _, closed⟩ := data_stretches _ .empty 0 { allowData := true } stretch
  obtain ⟨upTo, landing, later, _, split, landed, code, _⟩ :=
    closed (lt_of_lt_of_eq (by decide) behind.symm)
  exact ⟨stretch, load, landing, split ▸ List.mem_append_right _ List.mem_cons_self, landed, code⟩

end Sm83
