import Sm83.Proofs.Label.Lookup
import Sm83.Sweep.Turn

/-!
# What one turn does

A turn announces the labels at its offset, takes one item there and lets its operand refer to
labels. All that a turn can do is said once here: `passes_of_turn` takes a turn apart, and
`Refers` lists what an operand does to the labels.
-/

namespace Sm83

/-! ## Targets of relative jumps -/

/-- The offset in the image that a relative jump at an offset goes to. A jump to before the image
has none. -/
def Instruction.target? (instruction : Instruction) (offset : Nat) : Option Nat :=
  match instruction.operand with
  | .distance distance =>
    match Sweep.jumpTarget offset distance with
    | .ofNat target => some target
    | .negSucc _ => none
  | _ => none

theorem Instruction.target?_eq_some_iff {instruction : Instruction} {offset target : Nat} :
    instruction.target? offset = some target ↔
      ∃ distance, instruction.operand = .distance distance ∧
        Sweep.jumpTarget offset distance = target := by
  rw [target?]
  cases instruction.operand with
  | distance distance =>
      simp only [Operand.distance.injEq, exists_eq_left']
      cases landing : Sweep.jumpTarget offset distance with
      | ofNat landed => exact Option.some_inj.trans Int.ofNat_inj.symm
      | negSucc n => exact iff_of_false (by simp) (by omega)
  | _ => simp

/-- The offset in the image that a step jumps to, if its item is a relative jump. -/
def Step.target? (step : Step) : Option Nat :=
  match step.item with
  | .code instruction _ => instruction.target? step.offset
  | .data _ => none

theorem Step.target?_eq_some_iff {step : Step} {target : Nat} :
    step.target? = some target ↔ ∃ instruction argument,
      step.item = .code instruction argument ∧ instruction.target? step.offset = some target := by
  rw [target?]
  cases step.item <;> simp

namespace Sweep

/-! ## Announcing an offset -/

theorem announce_fst (sweep : Sweep) (labels : LabelMap) (offset : Nat) :
    (sweep.announce labels offset).1 =
      (((sweep.prepare labels offset).1.define .code (Bank.localAddress offset)).define .data
        (Bank.localAddress offset)) :=
  rfl

theorem get?_announce_of_ne (sweep : Sweep) (labels : LabelMap) {offset address : Nat}
    (kind : LabelKind) (other : Bank.localAddress offset ≠ address) :
    (sweep.announce labels offset).1.get? kind address = labels.get? kind address := by
  simp only [announce_fst, LabelMap.get?_define, other, and_false, if_false]
  rw [prepare]
  by_cases known : labels.contains .code (Bank.localAddress offset) = true
  · by_cases loaded : labels.contains .data (Bank.localAddress offset) = true <;>
      simp [known, loaded, LabelMap.get?_reference, LabelMap.get?_insert, LabelMap.silence,
        LabelMap.get?_modify, other, passedDataLabel, dataLabel]
  · by_cases loaded : (sweep.options.allowData &&
        labels.contains .data (Bank.localAddress offset)) = true <;>
      simp [known, loaded, LabelMap.get?_reference, LabelMap.get?_insert, other, passedCodeLabel,
        passedDataLabel, dataLabel]

/-- The code label at an offset that is announced. -/
def announcedCode (labels : LabelMap) (offset : Nat) : Label :=
  match labels.get? .code (Bank.localAddress offset) with
  | some label => label.referenced.passed
  | none => passedCodeLabel offset

theorem get?_announce_code (sweep : Sweep) (labels : LabelMap) (offset : Nat) :
    (sweep.announce labels offset).1.get? .code (Bank.localAddress offset) =
      some (announcedCode labels offset) := by
  simp only [announce_fst, LabelMap.get?_define, reduceCtorEq, false_and, if_false]
  simp only [prepare, announcedCode]
  cases found : labels.get? .code (Bank.localAddress offset) with
  | none =>
      have missing := LabelMap.contains_eq_false_iff.mpr found
      by_cases loaded : (sweep.options.allowData &&
          labels.contains .data (Bank.localAddress offset)) = true <;>
        simp [missing, loaded, LabelMap.get?_insert, passedCodeLabel, Label.passed]
  | some label =>
      have known := LabelMap.contains_of_get? found
      by_cases loaded : labels.contains .data (Bank.localAddress offset) = true <;>
        simp [known, loaded, LabelMap.get?_reference, LabelMap.get?_insert, passedDataLabel,
          dataLabel, found]

/-- The data label at an offset that is announced. A code label takes the place of the data label;
without one, data that is looked for there is found. -/
def announcedData (sweep : Sweep) (labels : LabelMap) (offset : Nat) : Label :=
  match labels.get? .data (Bank.localAddress offset) with
  | some label =>
    if labels.contains .code (Bank.localAddress offset) then label.silenced
    else if sweep.options.allowData then label.referenced.passed
    else passedDataLabel offset
  | none => passedDataLabel offset

theorem get?_announce_data (sweep : Sweep) (labels : LabelMap) (offset : Nat) :
    (sweep.announce labels offset).1.get? .data (Bank.localAddress offset) =
      some (sweep.announcedData labels offset) := by
  simp only [announce_fst, LabelMap.get?_define, reduceCtorEq, false_and, if_false]
  simp only [prepare, announcedData]
  by_cases known : labels.contains .code (Bank.localAddress offset) = true
  · cases found : labels.get? .data (Bank.localAddress offset) with
    | none =>
        have missing := LabelMap.contains_eq_false_iff.mpr found
        simp [known, missing, LabelMap.get?_reference, LabelMap.get?_insert, passedDataLabel,
          dataLabel, Label.passed]
    | some label =>
        have loaded := LabelMap.contains_of_get? found
        simp [known, loaded, LabelMap.get?_reference, LabelMap.get?_silence_data, found,
          Label.silenced, Label.passed]
  · cases found : labels.get? .data (Bank.localAddress offset) with
    | none =>
        have missing := LabelMap.contains_eq_false_iff.mpr found
        simp [known, missing, LabelMap.get?_insert, passedCodeLabel, passedDataLabel, dataLabel,
          Label.passed]
    | some label =>
        have loaded := LabelMap.contains_of_get? found
        by_cases allowed : sweep.options.allowData = true <;>
          simp [known, loaded, allowed, LabelMap.get?_reference, LabelMap.get?_insert, found,
            passedCodeLabel, passedDataLabel, dataLabel, Label.passed]

/-! ## Referring to an operand -/

/-- What a jump to a target in the image refers to, and what that does to the labels: the data
label there loses its references in any case. -/
inductive RefersJump (sweep : Sweep) (labels : LabelMap) (target : Nat) :
    Argument → LabelMap → Prop where
  /-- The address of the target has a code label. -/
  | known (found : labels.contains .code (Bank.localAddress target) = true) :
      RefersJump sweep labels target (.label .code (Bank.localAddress target))
        ((labels.reference .code (Bank.localAddress target)).silence (Bank.localAddress target))
  /-- The target lies before the start. -/
  | behind (missing : labels.contains .code (Bank.localAddress target) = false)
      (before : target < sweep.start) :
      RefersJump sweep labels target (.routine target) (labels.silence (Bank.localAddress target))
  /-- The jump asks for a code label. -/
  | asks (missing : labels.contains .code (Bank.localAddress target) = false)
      (inside : sweep.start ≤ target) :
      RefersJump sweep labels target (.label .code (Bank.localAddress target))
        ((labels.insert (jumpLabel target)).silence (Bank.localAddress target))

/-- What the operand of an instruction may become, and what that does to the labels. Only relative
jumps and loaded words touch them. -/
inductive Refers (sweep : Sweep) (labels : LabelMap) (offset : Nat) (instruction : Instruction) :
    Option Argument → LabelMap → Prop where
  /-- The operand is shown without a label, and is no jump into the image. -/
  | plain {argument : Option Argument} (noJump : instruction.target? offset = none)
      (noLabel : ∀ kind address, argument ≠ some (.label kind address)) :
      Refers sweep labels offset instruction argument labels
  /-- A jump into the image. -/
  | jump {target : Nat} {shown : Argument} {after : LabelMap}
      (goes : instruction.target? offset = some target)
      (refers : sweep.RefersJump labels target shown after) :
      Refers sweep labels offset instruction (some shown) after
  /-- A word that a code label in use explains. -/
  | explained {word : Nat} (loads : instruction.operand = .word word)
      (used : labels.isUsed .code word = true) :
      Refers sweep labels offset instruction (some (.label .code word))
        (yieldToCode labels word (Bank.flatOffset word sweep.bank))
  /-- A word that is taken for the address of data. -/
  | loads {word : Nat} (loads : instruction.operand = .word word)
      (unused : labels.isUsed .code word = false) (rom : word < Bank.windowEnd)
      (allowed : sweep.options.allowData = true) :
      Refers sweep labels offset instruction (some (.label .data word))
        (referData labels word (Bank.flatOffset word sweep.bank))

theorem Refers.refersJump {sweep : Sweep} {labels after : LabelMap} {offset target : Nat}
    {instruction : Instruction} {argument : Option Argument}
    (refers : sweep.Refers labels offset instruction argument after)
    (jump : instruction.target? offset = some target) :
    ∃ shown, argument = some shown ∧ sweep.RefersJump labels target shown after := by
  cases refers with
  | plain noJump =>
      rw [jump] at noJump
      cases noJump
  | jump goes refers =>
      obtain rfl := Option.some.inj (goes.symm.trans jump)
      exact ⟨_, rfl, refers⟩
  | explained loads | loads loads => simp [Instruction.target?, loads] at jump

theorem refers_of_jump (sweep : Sweep) (labels : LabelMap) {offset : Nat}
    {instruction : Instruction} {distance : Int} (jump : instruction.operand = .distance distance) :
    sweep.Refers labels offset instruction (some (sweep.referJump labels offset distance).1)
      (sweep.referJump labels offset distance).2 := by
  rw [referJump]
  cases landing : jumpTarget offset distance with
  | negSucc n =>
      exact .plain (by simp [Instruction.target?, jump, landing]) (by simp)
  | ofNat target =>
      have goes : instruction.target? offset = some target := by
        simp [Instruction.target?, jump, landing]
      apply Refers.jump goes
      simp only
      split
      · next found => exact .known found
      · next missing =>
          split
          · next before => exact .behind (by simpa using missing) before
          · next inside => exact .asks (by simpa using missing) (by omega)

theorem refers_of_word (sweep : Sweep) (labels : LabelMap) {offset : Nat}
    {instruction : Instruction} {word : Nat} (loads : instruction.operand = .word word) :
    sweep.Refers labels offset instruction
      (some (sweep.referWord labels instruction.opcode word).1)
      (sweep.referWord labels instruction.opcode word).2 := by
  have noJump : instruction.target? offset = none := by simp [Instruction.target?, loads]
  rw [referWord]
  cases sweep.wordName? word with
  | some name => exact .plain noJump (by simp)
  | none =>
      simp only
      split
      · exact .plain noJump (by simp)
      split
      · next used => exact .explained loads used
      split
      · exact .plain noJump (by simp)
      · next unused inRom =>
          simp only [Bool.or_eq_true, decide_eq_true_eq, Bool.not_eq_true', not_or,
            Bool.not_eq_false, Nat.not_le] at inRom
          exact .loads loads (by simpa using unused) inRom.1 inRom.2

theorem refers_refer (sweep : Sweep) (labels : LabelMap) (offset : Nat)
    (instruction : Instruction) :
    sweep.Refers labels offset instruction (sweep.refer labels offset instruction).1
      (sweep.refer labels offset instruction).2 := by
  rw [refer]
  cases operand : instruction.operand with
  | none | byte value => exact .plain (by simp [Instruction.target?, operand]) (by simp)
  | high address =>
      simp only
      split <;> exact .plain (by simp [Instruction.target?, operand]) (by simp)
  | distance distance => exact refers_of_jump sweep labels operand
  | word word => exact refers_of_word sweep labels operand

theorem refers_of_refer {sweep : Sweep} {labels after : LabelMap} {offset : Nat}
    {instruction : Instruction} {argument : Option Argument}
    (referred : sweep.refer labels offset instruction = (argument, after)) :
    sweep.Refers labels offset instruction argument after := by
  have refers := refers_refer sweep labels offset instruction
  rwa [referred] at refers

/-! ## Taking an item -/

/-- How an item comes to be at an offset, and what that does to the labels: a byte of data leaves
them alone, an instruction refers to its operand. -/
def Takes (sweep : Sweep) (labels : LabelMap) (offset : Nat) : Item → LabelMap → Prop
  | .code instruction argument, after =>
    Instruction.decode? sweep.byte? offset = some instruction ∧
      sweep.refer labels offset instruction = (argument, after)
  | .data value, after => sweep.byte? offset = some value ∧ after = labels

theorem take?_data_iff {sweep : Sweep} {labels : LabelMap} {offset : Nat} {item : Item}
    {taken : Cursor} :
    sweep.take? labels offset true = some (item, taken) ↔
      ∃ value, sweep.byte? offset = some value ∧ item = .data value ∧
        taken = ⟨offset + 1, !labels.contains .code (Bank.localAddress (offset + 1)), labels⟩ := by
  simp [take?, Option.bind_eq_some_iff, @eq_comm _ item, @eq_comm _ taken]

theorem take?_code_iff {sweep : Sweep} {labels : LabelMap} {offset : Nat} {item : Item}
    {taken : Cursor} :
    sweep.take? labels offset false = some (item, taken) ↔
      ∃ instruction, Instruction.decode? sweep.byte? offset = some instruction ∧
        item = .code instruction (sweep.refer labels offset instruction).1 ∧
        taken = ⟨offset + instruction.size, false, (sweep.refer labels offset instruction).2⟩ := by
  simp [take?, Option.bind_eq_some_iff, @eq_comm _ item, @eq_comm _ taken]

theorem takes_of_take? {sweep : Sweep} {labels : LabelMap} {offset : Nat} {inData : Bool}
    {item : Item} {after : Cursor} (taken : sweep.take? labels offset inData = some (item, after)) :
    item.isData = inData ∧ sweep.Takes labels offset item after.labels := by
  cases inData with
  | true =>
      obtain ⟨value, read, rfl, rfl⟩ := take?_data_iff.mp taken
      exact ⟨rfl, read, rfl⟩
  | false =>
      obtain ⟨instruction, decoded, rfl, rfl⟩ := take?_code_iff.mp taken
      exact ⟨rfl, decoded, rfl⟩

theorem take?_inData {sweep : Sweep} {labels : LabelMap} {offset : Nat} {inData : Bool}
    {item : Item} {taken : Cursor}
    (taking : sweep.take? labels offset inData = some (item, taken)) :
    taken.inData =
      (inData && !taken.labels.contains .code (Bank.localAddress taken.offset)) := by
  cases inData with
  | true =>
      obtain ⟨value, _, _, rfl⟩ := take?_data_iff.mp taking
      rfl
  | false =>
      obtain ⟨instruction, _, _, rfl⟩ := take?_code_iff.mp taking
      rfl

/-! ## How a sweep goes on -/

theorem mayEnd_iff {sweep : Sweep} {cursor : Cursor} :
    sweep.mayEnd cursor = true ↔
      (sweep.stop ≤ cursor.offset ∨ sweep.options.stop = none) ∧
        cursor.labels.allDefined .code = true := by
  simp [mayEnd]

theorem onward_eq_stop_iff {sweep : Sweep} {item : Item} {taken : Cursor} :
    sweep.onward item taken = .stop ↔
      (sweep.options.hardStop = true ∧ sweep.stop ≤ taken.offset) ∨
        ((Opcode.endsFlow item.firstByte = true ∨ taken.inData = true) ∧
          sweep.entersData taken = false ∧ sweep.mayEnd taken = true) := by
  rw [onward]
  split
  · next hardStop =>
      exact iff_of_true rfl (.inl (by simpa using hardStop))
  · next noHardStop =>
      have soft : ¬(sweep.options.hardStop = true ∧ sweep.stop ≤ taken.offset) := by
        simpa using noHardStop
      simp only [soft, false_or, ← Bool.or_eq_true]
      cases Opcode.endsFlow item.firstByte || taken.inData <;>
        cases sweep.entersData taken <;> cases sweep.mayEnd taken <;> simp

/-- Behind an item, a sweep that goes on pauses exactly where control flow ends or data may go on,
and then the next byte is data if the sweep enters data there or is still in it. -/
theorem onward_of_not_stop {sweep : Sweep} {item : Item} {taken : Cursor}
    (goesOn : sweep.onward item taken ≠ .stop) :
    sweep.onward item taken =
      if Opcode.endsFlow item.firstByte || taken.inData then
        .pause (sweep.entersData taken || taken.inData)
      else .proceed := by
  rw [onward] at *
  split
  · next hardStop => exact absurd (if_pos hardStop) goesOn
  · next noHardStop =>
      rw [if_neg noHardStop] at goesOn
      cases enters : sweep.entersData taken
      · cases may : sweep.mayEnd taken <;> simp_all
      · simp

/-! ## The whole turn -/

/-- The step of a turn, where the turn leaves the cursor, and whether the sweep ends there. -/
def Turn.passed? : Turn → Option (Step × Cursor × Bool)
  | .short => none
  | .next step after => some (step, after, false)
  | .last step after => some (step, after, true)

/-- Whether the sweep ends behind the item. -/
def Onward.ends : Onward → Bool
  | .stop => true
  | _ => false

/-- Whether the item may stand apart from what comes behind. -/
def Onward.pauses : Onward → Bool
  | .pause _ => true
  | _ => false

/-- The cursor with which the sweep goes on. -/
def Onward.carry (taken : Cursor) : Onward → Cursor
  | .pause inData => { taken with inData := inData }
  | _ => taken

@[simp]
theorem Onward.carry_offset (taken : Cursor) (onward : Onward) :
    (onward.carry taken).offset = taken.offset := by
  cases onward <;> rfl

@[simp]
theorem Onward.carry_labels (taken : Cursor) (onward : Onward) :
    (onward.carry taken).labels = taken.labels := by
  cases onward <;> rfl

/-- The step at a cursor that passes an item and leaves a cursor behind it. -/
def stepOf (sweep : Sweep) (cursor : Cursor) (item : Item) (taken : Cursor) : Step where
  offset := cursor.offset
  item := item
  apartBefore := (sweep.announce cursor.labels cursor.offset).2
  apartAfter := (sweep.onward item taken).pauses && !cursor.inData

theorem passed?_turn (sweep : Sweep) (cursor : Cursor) :
    (sweep.turn cursor).passed? =
      (sweep.take? (sweep.announce cursor.labels cursor.offset).1 cursor.offset cursor.inData).map
        fun (item, taken) => (sweep.stepOf cursor item taken,
          (sweep.onward item taken).carry taken, (sweep.onward item taken).ends) := by
  rw [turn]
  cases taking : sweep.take? (sweep.announce cursor.labels cursor.offset).1 cursor.offset
      cursor.inData with
  | none => simp [taking, Turn.passed?]
  | some pair =>
      cases decision : sweep.onward pair.1 pair.2 <;>
        simp [taking, decision, stepOf, Turn.passed?, Onward.carry, Onward.ends, Onward.pauses]

theorem passed?_of_take? {sweep : Sweep} {cursor taken : Cursor} {item : Item}
    (taking : sweep.take? (sweep.announce cursor.labels cursor.offset).1 cursor.offset
      cursor.inData = some (item, taken)) :
    (sweep.turn cursor).passed? = some (sweep.stepOf cursor item taken,
      (sweep.onward item taken).carry taken, (sweep.onward item taken).ends) := by
  rw [passed?_turn, taking, Option.map_some]

theorem passed?_eq_some_iff {sweep : Sweep} {cursor after : Cursor} {step : Step} {ended : Bool} :
    (sweep.turn cursor).passed? = some (step, after, ended) ↔
      ∃ item taken, sweep.take? (sweep.announce cursor.labels cursor.offset).1 cursor.offset
          cursor.inData = some (item, taken) ∧
        step = sweep.stepOf cursor item taken ∧ after = (sweep.onward item taken).carry taken ∧
        ended = (sweep.onward item taken).ends := by
  simp [passed?_turn, @eq_comm _ step, @eq_comm _ after, @eq_comm _ ended]

/-- How a decision carries the cursor on from where the item left it, and whether it ends the
sweep. -/
inductive Settles (taken : Cursor) : Onward → Cursor → Bool → Prop where
  | stop : Settles taken .stop taken true
  | proceed : Settles taken .proceed taken false
  | pause (inData : Bool) : Settles taken (.pause inData) { taken with inData := inData } false

theorem settles_carry (taken : Cursor) (onward : Onward) :
    Settles taken onward (onward.carry taken) onward.ends := by
  cases onward <;> constructor

theorem Settles.ended_iff {taken after : Cursor} {onward : Onward} {ended : Bool}
    (settles : Settles taken onward after ended) : ended = true ↔ onward = .stop := by
  cases settles <;> simp

/-- A turn at a cursor passes a step and leaves the cursor behind it. -/
structure Passes (sweep : Sweep) (cursor : Cursor) (step : Step) (after : Cursor) (ended : Bool) :
    Prop where
  offset_eq : step.offset = cursor.offset
  isData_eq : step.item.isData = cursor.inData
  after_offset : after.offset = step.offset + step.item.size
  takes : sweep.Takes (sweep.announce cursor.labels step.offset).1 step.offset step.item
    after.labels
  settles : ∃ taken, taken.labels = after.labels ∧ taken.offset = after.offset ∧
    (taken.inData = true → cursor.inData = true) ∧
    Settles taken (sweep.onward step.item taken) after ended

theorem taken_of_turn {sweep : Sweep} {cursor after : Cursor} {step : Step} {ended : Bool}
    (turned : (sweep.turn cursor).passed? = some (step, after, ended)) :
    step.offset = cursor.offset ∧ ∃ taken,
      sweep.take? (sweep.announce cursor.labels cursor.offset).1 cursor.offset cursor.inData =
        some (step.item, taken) ∧
      Settles taken (sweep.onward step.item taken) after ended := by
  obtain ⟨item, taken, taking, rfl, rfl, rfl⟩ := passed?_eq_some_iff.mp turned
  exact ⟨rfl, taken, taking, settles_carry taken _⟩

theorem Settles.labels_eq {taken after : Cursor} {onward : Onward} {ended : Bool}
    (settles : Settles taken onward after ended) : taken.labels = after.labels := by
  cases settles <;> rfl

theorem Settles.offset_eq {taken after : Cursor} {onward : Onward} {ended : Bool}
    (settles : Settles taken onward after ended) : taken.offset = after.offset := by
  cases settles <;> rfl

theorem passes_of_turn {sweep : Sweep} {cursor after : Cursor} {step : Step} {ended : Bool}
    (turned : (sweep.turn cursor).passed? = some (step, after, ended)) :
    sweep.Passes cursor step after ended := by
  obtain ⟨here, taken, taking, settles⟩ := taken_of_turn turned
  rw [← here] at taking
  have takes := takes_of_take? taking
  rw [settles.labels_eq] at takes
  refine ⟨here, takes.1, ?_, takes.2, taken, settles.labels_eq, settles.offset_eq, ?_, settles⟩
  · exact settles.offset_eq ▸ (take?_advances taking).2
  · intro data
    rw [take?_inData taking] at data
    exact (Bool.and_eq_true_iff.mp data).1

/-- A turn passes a byte of data and leaves the labels as they were announced, or it passes an
instruction and leaves them as its operand refers to them. -/
theorem Passes.refers {sweep : Sweep} {cursor after : Cursor} {step : Step} {ended : Bool}
    (passes : sweep.Passes cursor step after ended) :
    (∃ value, step.item = .data value ∧
        after.labels = (sweep.announce cursor.labels step.offset).1) ∨
      ∃ instruction argument, step.item = .code instruction argument ∧
        sweep.Refers (sweep.announce cursor.labels step.offset).1 step.offset instruction argument
          after.labels := by
  have takes := passes.takes
  cases kind : step.item with
  | data value =>
      rw [kind] at takes
      exact .inl ⟨value, rfl, takes.2⟩
  | code instruction argument =>
      rw [kind] at takes
      exact .inr ⟨instruction, argument, rfl, refers_of_refer takes.2⟩

theorem Passes.refersJump {sweep : Sweep} {cursor after : Cursor} {step : Step} {ended : Bool}
    (passes : sweep.Passes cursor step after ended) {target : Nat}
    (jump : step.target? = some target) :
    ∃ instruction shown, step.item = .code instruction (some shown) ∧
      sweep.RefersJump (sweep.announce cursor.labels step.offset).1 target shown after.labels := by
  obtain ⟨instruction, argument, kind, goes⟩ := Step.target?_eq_some_iff.mp jump
  rcases passes.refers with ⟨value, data, _⟩ | ⟨instruction', argument', code, refers⟩
  · rw [kind] at data
    cases data
  · rw [kind] at code
    cases code
    obtain ⟨shown, rfl, jumps⟩ := refers.refersJump goes
    exact ⟨instruction, shown, kind, jumps⟩

theorem take?_eq_none_of_turn {sweep : Sweep} {cursor : Cursor}
    (short : (sweep.turn cursor).passed? = none) :
    sweep.take? (sweep.announce cursor.labels cursor.offset).1 cursor.offset cursor.inData =
      none := by
  rwa [passed?_turn, Option.map_eq_none_iff] at short

end Sweep

end Sm83
