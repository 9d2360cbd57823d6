import Mathlib
import Sm83.Proofs.Sweep.Lockstep
import Sm83.Proofs.Sweep.Origins
import Sm83.Proofs.Sweep.Plain

/-!
# What a sweep comes to

A sweep is refused, comes to its end or runs out of bytes. In each case its items lie side by side
from its start on and are what the bytes below them say, no offset outgrows 32 bits, and nothing at
or behind the ceiling matters. `disassemble_trichotomy` says which case arises when.
-/

namespace Sm83

/-! ## Operands in items -/

/-- How the operand of the instruction at an offset is given in an item. -/
inductive Operand.GivenAs (sweep : Sweep) (offset : Nat) : Operand → Option Argument → Prop where
  | none : GivenAs sweep offset .none .none
  | byte (value : UInt8) : GivenAs sweep offset (.byte value) (some (.byte value))
  | highName {address : Nat} {name : String}
      (known : sweep.names.at? address sweep.bank = some name) :
      GivenAs sweep offset (.high address) (some (.name name))
  | high {address : Nat} (unknown : sweep.names.at? address sweep.bank = .none) :
      GivenAs sweep offset (.high address) (some (.number address))
  | ahead {distance : Int} {target : Nat} (lands : Sweep.jumpTarget offset distance = target) :
      GivenAs sweep offset (.distance distance) (some (.label .code (Bank.localAddress target)))
  | behind {distance : Int} {target : Nat} (lands : Sweep.jumpTarget offset distance = target)
      (before : target < sweep.start) :
      GivenAs sweep offset (.distance distance) (some (.routine target))
  | outside {distance : Int} (lands : Sweep.jumpTarget offset distance < 0) :
      GivenAs sweep offset (.distance distance) (some (.relative (2 + distance)))
  | wordName {word : Nat} {name : String} (known : sweep.wordName? word = some name) :
      GivenAs sweep offset (.word word) (some (.name name))
  | routine (word : Nat) :
      GivenAs sweep offset (.word word) (some (.routine (Bank.flatOffset word sweep.bank)))
  | label (kind : LabelKind) (word : Nat) :
      GivenAs sweep offset (.word word) (some (.label kind word))
  | number (word : Nat) : GivenAs sweep offset (.word word) (some (.number word))

namespace Sweep

variable {sweep : Sweep} {labels : LabelMap} {offset : Nat}

theorem givenAs_referJump (sweep : Sweep) (labels : LabelMap) (offset : Nat) (distance : Int) :
    Operand.GivenAs sweep offset (.distance distance)
      (some (sweep.referJump labels offset distance).1) := by
  rw [referJump]
  cases landing : jumpTarget offset distance with
  | negSucc n => exact .outside (by omega)
  | ofNat target =>
      simp only
      split
      · exact .ahead landing
      split
      · next before => exact .behind landing before
      · exact .ahead landing

theorem givenAs_referWord (sweep : Sweep) (labels : LabelMap) (offset : Nat) (opcode : UInt8)
    (word : Nat) :
    Operand.GivenAs sweep offset (.word word) (some (sweep.referWord labels opcode word).1) := by
  rw [referWord]
  cases known : sweep.wordName? word with
  | some name => exact .wordName known
  | none =>
      simp only
      split
      · exact .routine word
      split
      · exact .label .code word
      split
      · exact .number word
      · exact .label .data word

theorem givenAs_refer (sweep : Sweep) (labels : LabelMap) (offset : Nat)
    (instruction : Instruction) :
    instruction.operand.GivenAs sweep offset (sweep.refer labels offset instruction).1 := by
  rw [refer]
  cases instruction.operand with
  | none => exact .none
  | byte value => exact .byte value
  | high address =>
      simp only
      split
      · next known => exact .highName known
      · next unknown => exact .high unknown
  | distance distance => exact givenAs_referJump sweep labels offset distance
  | word word => exact givenAs_referWord sweep labels offset instruction.opcode word

end Sweep

/-! ## Items and the bytes below them -/

/-- The item of a step is what the bytes of the image below it say: an instruction of their size,
with their template and their operand, or a single byte of data. -/
def Step.StandsFor (sweep : Sweep) (step : Step) : Prop :=
  match step.item with
  | .code instruction argument =>
    step.item.size = Plain.sizeAt sweep.image step.offset ∧
      sweep.image[step.offset]? = some instruction.opcode ∧
      Instruction.OperandBytes (sweep.image[·]?) step.offset instruction ∧
      instruction.operand.GivenAs sweep step.offset argument
  | .data value => step.item.size = 1 ∧ sweep.image[step.offset]? = some value

namespace Sweep

variable {sweep : Sweep} {steps : List Step} {cursor behind : Cursor} {step : Step} {ended : Bool}

theorem Passes.standsFor (passes : sweep.Passes cursor step behind ended) :
    step.StandsFor sweep := by
  have takes := passes.takes
  rw [Step.StandsFor]
  cases kind : step.item with
  | data value =>
      rw [kind] at takes
      exact ⟨rfl, getElem?_of_byte? takes.1⟩
  | code instruction argument =>
      rw [kind] at takes
      obtain ⟨decoded, referred⟩ := takes
      obtain ⟨first, bytes⟩ := Instruction.decode?_eq_some_iff.mp decoded
      have given := givenAs_refer sweep (sweep.announce cursor.labels step.offset).1 step.offset
        instruction
      rw [referred] at given
      exact ⟨Plain.size_eq_sizeAt decoded, getElem?_of_byte? first,
        bytes.mono fun _ _ _ => getElem?_of_byte?, given⟩

theorem Passes.le_ceiling (passes : sweep.Passes cursor step behind ended) :
    behind.offset ≤ sweep.ceiling := by
  have pos := step.item.size_pos
  have last := passes.reads.isSome (Nat.sub_lt pos Nat.one_pos)
  have below : step.offset + (step.item.size - 1) < sweep.ceiling :=
    Plain.isSome_byte?_iff.mp last
  rw [passes.after_offset]
  omega

/-- The steps of a run lie side by side from its start to an offset, below the ceiling, and each of
them stands for the bytes below it. -/
structure Tiling (sweep : Sweep) (steps : List Step) (behind : Nat) : Prop where
  tiles : Tiles sweep.start steps behind
  below : behind ≤ sweep.ceiling
  standsFor : ∀ step ∈ steps, step.StandsFor sweep

theorem Reaches.tiling (reached : sweep.Reaches steps cursor ended)
    (inside : sweep.start ≤ sweep.ceiling) : sweep.Tiling steps cursor.offset := by
  induction reached with
  | first => exact ⟨rfl, inside, by simp⟩
  | @pass steps before after step ended reached turned ih =>
      have passes := passes_of_turn turned
      refine ⟨(reached.pass turned).tiles, passes.le_ceiling, fun other passed => ?_⟩
      rcases List.mem_append.mp passed with inSteps | here
      · exact ih.standsFor other inSteps
      · rw [List.mem_singleton.mp here]
        exact passes.standsFor

/-! ## Where a run breaks off -/

theorem ceiling_of_take?_eq_none {labels : LabelMap} {offset : Nat} {inData : Bool}
    (below : offset ≤ sweep.ceiling) (short : sweep.take? labels offset inData = none) :
    offset = sweep.ceiling ∨
      (inData = false ∧ offset < sweep.ceiling ∧
        sweep.ceiling < offset + Plain.sizeAt sweep.image offset) := by
  rcases Nat.eq_or_lt_of_le below with atEnd | inside
  · exact .inl atEnd
  refine .inr ?_
  cases inData with
  | true =>
      obtain ⟨value, read⟩ := Option.isSome_iff_exists.mp (Plain.isSome_byte?_iff.mpr inside)
      simp [take?, read] at short
  | false =>
      refine ⟨rfl, inside, Nat.lt_of_not_le fun fits => ?_⟩
      obtain ⟨instruction, decoded⟩ := Plain.decode?_isSome_iff_fits.mpr ⟨inside, fits⟩
      simp [take?, decoded] at short

/-! ## Offsets in 32 bits -/

/-- No offset that a sweep computes outgrows 32 bits: the end of its bank, the offsets of the bytes
of an item and the one behind it, the targets of jumps, and what words stand for. -/
structure Fits32Bits (sweep : Sweep) : Prop where
  bankEnd : (sweep.bank + 1) * Bank.size < UInt32.size
  items : ∀ steps cursor ended, sweep.Reaches steps cursor ended →
    ∀ size ≤ 3, cursor.offset + size < UInt32.size
  targets : ∀ steps cursor ended, sweep.Reaches steps cursor ended →
    ∀ step ∈ steps, ∀ target, step.target? = some target → target < UInt32.size
  words : ∀ low high, Bank.flatOffset (Instruction.wordOf low high) sweep.bank < UInt32.size

theorem ceiling_le_capacity (sweep : Sweep) : sweep.ceiling ≤ Bank.capacity :=
  Nat.min_le_right _ _

theorem fits32Bits (inside : sweep.start < sweep.ceiling) : sweep.Fits32Bits := by
  have limit : sweep.ceiling ≤ 0x200000 := ceiling_le_capacity sweep
  have word : UInt32.size = 0x100000000 := rfl
  have bank : sweep.bank < 128 := by
    rw [Sweep.bank, Bank.ofOffset, Bank.size]
    omega
  refine ⟨?_, ?_, ?_, ?_⟩
  · rw [word, Bank.size]
    omega
  · intro steps cursor ended reached size small
    have below := (reached.tiling (Nat.le_of_lt inside)).below
    omega
  · intro steps cursor ended reached step passed target jump
    obtain ⟨_, before, behind, _, _, _, passes, _⟩ := reached.passing passed
    have near := passes.target?_near jump
    have below := passes.le_ceiling
    omega
  · intro low high
    exact Bank.flatOffset_lt (Instruction.wordOf_lt low high) fun _ _ => by omega

/-! ## Bytes that do not matter -/

/-- The same sweep over another image. -/
def withImage (sweep : Sweep) (image : ByteArray) : Sweep :=
  { sweep with image := image }

variable {image : ByteArray}

theorem turn_withImage (same : (sweep.withImage image).byte? = sweep.byte?) (cursor : Cursor) :
    (sweep.withImage image).turn cursor = sweep.turn cursor := by
  have taken (labels : LabelMap) :
      (sweep.withImage image).take? labels cursor.offset cursor.inData =
        sweep.take? labels cursor.offset cursor.inData := by
    rw [take?, take?, same]
    rfl
  simp only [turn]
  rw [← taken]
  rfl

theorem listing_withImage (sameCeiling : (sweep.withImage image).ceiling = sweep.ceiling)
    (same : ∀ offset < sweep.ceiling, image[offset]? = sweep.image[offset]?) :
    (sweep.withImage image).listing = sweep.listing := by
  have bytes : (sweep.withImage image).byte? = sweep.byte? := by
    funext offset
    rw [byte?, byte?, sameCeiling]
    split
    · next below => exact same offset below
    · rfl
  have sameRun : (sweep.withImage image).run = sweep.run :=
    runFrom_eq_of_turn_eq (turn_withImage bytes) #[] sweep.first
  have sameObjection : (sweep.withImage image).objection? = sweep.objection? := by
    rw [objection?, objection?, sameCeiling]
    rfl
  simp only [listing]
  rw [sameRun, sameObjection]
  rfl

/-! ## Refusals and ends -/

theorem listing_of_objection {error : SweepError} (objection : sweep.objection? = some error) :
    sweep.listing = .error error := by
  simp [listing, objection]

theorem objection?_of_start (outside : sweep.ceiling ≤ sweep.start) :
    sweep.objection? = some (.outOfRange sweep.start sweep.ceiling) := by
  simp [objection?, outside]

theorem start_lt_of_noObjection (noObjection : sweep.objection? = none) :
    sweep.start < sweep.ceiling := by
  refine Nat.lt_of_not_le fun outside => ?_
  rw [objection?_of_start outside] at noObjection
  cases noObjection

/-- A sweep from a start in range is refused exactly if its stop is out of range. -/
theorem objection?_of_inside (inside : sweep.start < sweep.ceiling) :
    sweep.objection? = (sweep.options.stop.filter (Bank.capacity < ·)).map
      (SweepError.outOfRange · Bank.capacity) := by
  simp only [objection?, Nat.not_le.mpr inside, if_false]
  cases sweep.options.stop with
  | none => rfl
  | some stop => by_cases beyond : Bank.capacity < stop <;> simp [beyond, Nat.le_of_not_lt]

theorem listing_of_noObjection (inside : sweep.start < sweep.ceiling)
    (noObjection : sweep.objection? = none) :
    (∃ listing, sweep.listing = .ok listing ∧ sweep.start < listing.endOffset ∧
        sweep.Tiling listing.steps.toList listing.endOffset) ∨
      (sweep.listing = .error (.unterminated sweep.run.cursor.offset
          (Bank.ofOffset sweep.run.cursor.offset)) ∧
        (sweep.run.cursor.offset = sweep.ceiling ∨
          (sweep.run.cursor.inData = false ∧ sweep.run.cursor.offset < sweep.ceiling ∧
            sweep.ceiling < sweep.run.cursor.offset +
              Plain.sizeAt sweep.image sweep.run.cursor.offset))) := by
  have reached := sweep.reaches_run
  have tiling := reached.tiling (Nat.le_of_lt inside)
  cases state : sweep.run.finished with
  | true =>
      refine .inl ⟨_, listing_of_finished noObjection state, ?_, tiling⟩
      rw [state] at reached
      exact reached.start_lt
  | false =>
      refine .inr ⟨listing_of_unfinished noObjection state, ?_⟩
      exact ceiling_of_take?_eq_none tiling.below
        (take?_eq_none_of_turn (turn_of_run_unfinished state))

theorem listing_eq_outOfRange_iff (inside : sweep.start < sweep.ceiling) {offset limit : Nat} :
    sweep.listing = .error (.outOfRange offset limit) ↔
      sweep.options.stop = some offset ∧ Bank.capacity < offset ∧ limit = Bank.capacity := by
  cases objection : sweep.objection? with
  | some error =>
      rw [listing_of_objection objection]
      rw [objection?_of_inside inside] at objection
      obtain ⟨stop, given, rfl⟩ := Option.map_eq_some_iff.mp objection
      obtain ⟨given, beyond⟩ := Option.filter_eq_some_iff.mp given
      simp only [Except.error.injEq, SweepError.outOfRange.injEq, given, Option.some.injEq]
      constructor
      · rintro ⟨rfl, rfl⟩
        exact ⟨rfl, by simpa using beyond, rfl⟩
      · rintro ⟨rfl, _, rfl⟩
        exact ⟨rfl, rfl⟩
  | none =>
      refine iff_of_false (fun refused => ?_) fun ⟨given, beyond, _⟩ => ?_
      · rcases listing_of_noObjection inside objection with ⟨_, ok, _⟩ | ⟨failed, _⟩
        · cases ok.symm.trans refused
        · cases failed.symm.trans refused
      · have accepted : offset ≤ Bank.capacity := by
          simpa [objection?_of_inside inside, given] using objection
        omega

end Sweep

/-- What a sweep over an image comes to. It is refused if its start or else its stop is out of
range. Otherwise it ends, or it runs out of bytes: at the ceiling, or at an instruction that goes
beyond. The items passed lie side by side up to there and stand for the bytes below them; no offset
outgrows 32 bits, and bytes at or behind the ceiling make no difference. -/
theorem disassemble_trichotomy (image : ByteArray) (names : Names) (start : Nat)
    (options : Options) :
    let sweep : Sweep := ⟨image, names, start, options⟩
    let ceiling := min image.size Bank.capacity
    let result := disassemble image names start options
    (result = .error (.outOfRange start ceiling) ↔ ceiling ≤ start) ∧
    (start < ceiling → ∀ stop, result = .error (.outOfRange stop Bank.capacity) ↔
      options.stop = some stop ∧ Bank.capacity < stop) ∧
    (start < ceiling → (∀ stop, options.stop = some stop → stop ≤ Bank.capacity) →
      (∃ listing, result = .ok listing ∧ start < listing.endOffset ∧
        listing.endOffset ≤ ceiling ∧ sweep.Tiling listing.steps.toList listing.endOffset) ∨
      (∃ offset, result = .error (.unterminated offset (offset / 0x4000)) ∧ start ≤ offset ∧
        offset ≤ ceiling ∧ sweep.Tiling sweep.run.steps.toList offset ∧
        (offset = ceiling ∨ (sweep.run.cursor.inData = false ∧ offset < ceiling ∧
          ceiling < offset + Plain.sizeAt image offset)))) ∧
    (start < ceiling → sweep.Fits32Bits) ∧
    (∀ image', min image'.size Bank.capacity = ceiling →
      (∀ offset < ceiling, image'[offset]? = image[offset]?) →
      disassemble image' names start options = result) := by
  intro sweep ceiling result
  have limit : ceiling ≤ Bank.capacity := Nat.min_le_right _ _
  have refusal {offset bound : Nat} (inside : sweep.start < sweep.ceiling) :
      result = .error (.outOfRange offset bound) ↔
        sweep.options.stop = some offset ∧ Bank.capacity < offset ∧ bound = Bank.capacity :=
    Sweep.listing_eq_outOfRange_iff inside
  refine ⟨⟨fun refused => ?_, fun outside => ?_⟩, fun inside stop => ?_,
    fun inside stopInside => ?_, fun inside => Sweep.fits32Bits inside, ?_⟩
  · refine Nat.le_of_not_lt fun inside => ?_
    have beyond := ((refusal inside).mp refused).2.1
    omega
  · have outside : sweep.ceiling ≤ sweep.start := outside
    exact Sweep.listing_of_objection (Sweep.objection?_of_start outside)
  · exact (refusal inside).trans (by simp [sweep])
  · have noObjection : sweep.objection? = none := Plain.objection?_eq_none inside stopInside
    rcases Sweep.listing_of_noObjection inside noObjection with
      ⟨listing, ok, above, tiling⟩ | ⟨failed, short⟩
    · exact .inl ⟨listing, ok, above, tiling.below, tiling⟩
    · have tiling := sweep.reaches_run.tiling (Nat.le_of_lt inside)
      exact .inr ⟨_, failed, tiling.tiles.le, tiling.below, tiling, short⟩
  · intro image' sameCeiling same
    have sameCeiling : (sweep.withImage image').ceiling = sweep.ceiling := sameCeiling
    exact Sweep.listing_withImage sameCeiling same

/-- A call whose word is cut off leaves the sweep behind the instruction in front of it. -/
theorem disassemble_trichotomy_of_cut_call :
    let image := ByteArray.mk #[0x00, 0xcd, 0x00]
    disassemble image .empty 0 {} = .error (.unterminated 1 0) ∧
      (Sweep.mk image .empty 0 {}).Tiling (Sweep.mk image .empty 0 {}).run.steps.toList 1 ∧
      min image.size Bank.capacity < 1 + Plain.sizeAt image 1 := by
  have failed : disassemble (ByteArray.mk #[0x00, 0xcd, 0x00]) .empty 0 {} =
      .error (.unterminated 1 0) := by
    cbv
  obtain ⟨_, _, outcome, _⟩ :=
    disassemble_trichotomy (ByteArray.mk #[0x00, 0xcd, 0x00]) .empty 0 {}
  rcases outcome (by decide) (by simp) with ⟨_, ok, _⟩ | ⟨offset, failed', _, _, tiling, short⟩
  · cases ok.symm.trans failed
  · cases failed'.symm.trans failed
    refine ⟨failed, tiling, ?_⟩
    rcases short with atEnd | ⟨_, _, beyond⟩
    · exact absurd atEnd (by decide)
    · exact beyond

end Sm83
