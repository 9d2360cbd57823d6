import Mathlib.Order.Bounds.Basic
import Sm83.Proofs.Sweep.CodeLabels

/-!
# Where a sweep ends, read off the image

A sweep that takes no data passes one instruction after the other. Where it ends is settled by the
image alone: by the instructions, the distances of the relative jumps and the stop.
`Plain.disassemble_outcome` says so without a label.
-/

namespace Sm83

namespace Opcode

/-- The jumps and returns behind which control never goes on. -/
def flowEnds : List UInt8 := [0xc3, 0x18, 0xc9, 0xd9]

theorem endsFlow_iff (opcode : UInt8) : endsFlow opcode = true ↔ opcode ∈ flowEnds := by
  simp [endsFlow, flowEnds, or_assoc]

end Opcode

namespace Plain

/-! ## The plain sweep over an image -/

/-- The offset behind the last byte that counts. -/
def ceiling (image : ByteArray) : Nat :=
  min image.size Bank.capacity

/-- The number of bytes of the instruction at an offset; none behind the image. -/
def sizeAt (image : ByteArray) (offset : Nat) : Nat :=
  match image[offset]? with
  | some opcode => (Encoding.ofOpcode opcode).size
  | none => 0

/-- The offsets of the instructions from a start on, each behind the one before it. -/
def boundary (image : ByteArray) (start : Nat) : Nat → Nat
  | 0 => start
  | i + 1 => boundary image start i + sizeAt image (boundary image start i)

/-- The instruction at an offset lies below the ceiling with all of its bytes. -/
def Fits (image : ByteArray) (offset : Nat) : Prop :=
  offset < ceiling image ∧ offset + sizeAt image offset ≤ ceiling image

/-- Where the relative jump at an offset goes, if there is one. -/
def jump? (image : ByteArray) (offset : Nat) : Option Int :=
  match image[offset]?, image[offset + 1]? with
  | some opcode, some operand =>
    if opcode ∈ Opcode.relativeJumps then some (offset + 2 + Opcode.signed operand) else none
  | _, _ => none

/-- Of the instructions up to the `n`th, every jump that goes to the start or behind it goes to the
local address of one of them. -/
def Landed (image : ByteArray) (start n : Nat) : Prop :=
  ∀ j ≤ n, ∀ target : Nat, jump? image (boundary image start j) = some (target : Int) →
    start ≤ target →
      ∃ k ≤ n, Bank.localAddress (boundary image start k) = Bank.localAddress target

/-- A sweep may end behind the `n`th instruction: it is at its hard stop, or control flow ends
there, the stop is passed and every jump has landed. -/
def MayEnd (image : ByteArray) (start : Nat) (options : Options) (n : Nat) : Prop :=
  (∀ i ≤ n, Fits image (boundary image start i)) ∧
    ((options.hardStop = true ∧
        options.stop.getD (Bank.lastOffset start) ≤ boundary image start (n + 1)) ∨
      ((∃ opcode ∈ Opcode.flowEnds, image[boundary image start n]? = some opcode) ∧
        (∀ stop, options.stop = some stop → stop ≤ boundary image start (n + 1)) ∧
        Landed image start n))

instance (image : ByteArray) (offset : Nat) : Decidable (Fits image offset) :=
  inferInstanceAs (Decidable (_ ∧ _))

instance (image : ByteArray) (start n : Nat) : Decidable (Landed image start n) :=
  decidable_of_iff (∀ j < n + 1, ∀ target ∈ jump? image (boundary image start j),
      (start : Int) ≤ target → ∃ k < n + 1,
        Bank.localAddress (boundary image start k) = Bank.localAddress target.toNat) <| by
    simp only [Landed, Nat.lt_succ_iff, Option.mem_def]
    constructor
    · intro landed j passed target jump inside
      simpa using landed j passed target jump (by omega)
    · intro landed j passed target jump inside
      obtain ⟨target, rfl⟩ := Int.eq_ofNat_of_zero_le (by omega : 0 ≤ target)
      simpa using landed j passed target jump (by omega)

instance (image : ByteArray) (start : Nat) (options : Options) (n : Nat) :
    Decidable (MayEnd image start options n) :=
  decidable_of_iff ((∀ i < n + 1, Fits image (boundary image start i)) ∧
      ((options.hardStop = true ∧
          options.stop.getD (Bank.lastOffset start) ≤ boundary image start (n + 1)) ∨
        ((∃ opcode ∈ Opcode.flowEnds, image[boundary image start n]? = some opcode) ∧
          (∀ stop ∈ options.stop, stop ≤ boundary image start (n + 1)) ∧
          Landed image start n))) <| by
    simp only [MayEnd, Nat.lt_succ_iff, Option.mem_def]

/-! ## Instructions of the sweep -/

variable {sweep : Sweep}

theorem byte?_eq_some_iff {offset : Nat} {value : UInt8} :
    sweep.byte? offset = some value ↔
      offset < ceiling sweep.image ∧ sweep.image[offset]? = some value := by
  unfold Sweep.byte? ceiling Sweep.ceiling
  split <;> simp_all

theorem isSome_byte?_iff {offset : Nat} :
    (sweep.byte? offset).isSome = true ↔ offset < ceiling sweep.image := by
  unfold Sweep.byte? ceiling Sweep.ceiling
  split
  · next below =>
      have inside : offset < sweep.image.size := by omega
      simp [below, inside]
  · next above => simp [above]

theorem size_eq_sizeAt {offset : Nat} {instruction : Instruction}
    (decoded : Instruction.decode? sweep.byte? offset = some instruction) :
    instruction.size = sizeAt sweep.image offset := by
  have read := (byte?_eq_some_iff.mp (Instruction.opcode_of_decode? decoded)).2
  simp [sizeAt, read, Instruction.size]

theorem decode?_isSome_iff_fits {offset : Nat} :
    (∃ instruction, Instruction.decode? sweep.byte? offset = some instruction) ↔
      Fits sweep.image offset := by
  rw [Instruction.decode?_isSome_iff]
  constructor
  · rintro ⟨opcode, read, rest⟩
    obtain ⟨below, found⟩ := byte?_eq_some_iff.mp read
    have last := isSome_byte?_iff.mp (rest ((Encoding.ofOpcode opcode).size - 1)
      (by unfold Encoding.size; omega))
    refine ⟨below, ?_⟩
    simp only [sizeAt, found]
    rw [Encoding.size] at last ⊢
    omega
  · rintro ⟨below, fits⟩
    obtain ⟨opcode, read⟩ := Option.isSome_iff_exists.mp (isSome_byte?_iff.mpr below)
    refine ⟨opcode, read, fun k inside => isSome_byte?_iff.mpr ?_⟩
    simp only [sizeAt, (byte?_eq_some_iff.mp read).2] at fits
    omega

theorem target?_eq_some_iff_jump? {offset target : Nat} {instruction : Instruction}
    (decoded : Instruction.decode? sweep.byte? offset = some instruction) :
    instruction.target? offset = some target ↔
      jump? sweep.image offset = some (target : Int) := by
  have read := (byte?_eq_some_iff.mp (Instruction.opcode_of_decode? decoded)).2
  have fits := (decode?_isSome_iff_fits.mp ⟨instruction, decoded⟩).2
  rw [Instruction.target?_eq_some_iff]
  simp only [Instruction.operand_eq_distance_iff_of_decode? decoded, jump?, read]
  constructor
  · rintro ⟨distance, ⟨relative, value, behind, rfl⟩, landing⟩
    simp only [(byte?_eq_some_iff.mp behind).2, relative, if_true]
    exact congrArg some landing
  · intro jump
    split at jump
    · next opcode operand first second =>
        cases first
        split at jump
        · next relative =>
            have two : sizeAt sweep.image offset = 2 := by
              simp only [sizeAt, read]
              exact Encoding.size_eq_two_of_distance
                ((Encoding.operand_eq_distance_iff _).mpr relative)
            refine ⟨_, ⟨relative, operand, byte?_eq_some_iff.mpr ⟨by omega, second⟩, rfl⟩, ?_⟩
            exact Option.some.inj jump
        · cases jump
    · cases jump

/-! ## Runs without data -/

variable {steps : List Step} {cursor : Cursor} {ended : Bool}

theorem onward_eq_stop_iff (noData : sweep.options.allowData = false) (item : Item)
    (taken : Cursor) (code : taken.inData = false) :
    sweep.onward item taken = .stop ↔
      (sweep.options.hardStop = true ∧ sweep.stop ≤ taken.offset) ∨
        (Opcode.endsFlow item.firstByte = true ∧ sweep.mayEnd taken = true) := by
  simp [Sweep.onward_eq_stop_iff, Sweep.entersData, noData, code]

theorem inData_eq_false (noData : sweep.options.allowData = false)
    (reached : sweep.Reaches steps cursor ended) : cursor.inData = false := by
  induction reached with
  | first => rfl
  | @pass _ before after step ended _ turned ih =>
      obtain ⟨taken, _, _, data, settles⟩ := (Sweep.passes_of_turn turned).settles
      have code : taken.inData = false := by
        cases kind : taken.inData with
        | false => rfl
        | true => rw [ih] at data; exact absurd (data kind) (by simp)
      generalize decision : sweep.onward step.item taken = onward at settles
      cases settles with
      | stop => exact code
      | proceed => exact code
      | pause goesOn =>
          have goesOnwards : sweep.onward step.item taken ≠ .stop := by simp [decision]
          have pauses := Sweep.onward_of_not_stop goesOnwards
          simp only [decision, Sweep.entersData, noData, code] at pauses
          split at pauses <;> cases pauses
          rfl

theorem code_of_passed (noData : sweep.options.allowData = false)
    (reached : sweep.Reaches steps cursor ended) {step : Step} (passed : step ∈ steps) :
    ∃ instruction argument, step.item = .code instruction argument ∧
      Instruction.decode? sweep.byte? step.offset = some instruction := by
  induction reached with
  | first => cases passed
  | pass reached turned ih =>
      rcases List.mem_append.mp passed with before | here
      · exact ih before
      · rw [List.mem_singleton.mp here]
        have passes := Sweep.passes_of_turn turned
        have kind := passes.isData_eq
        have reads := passes.reads
        rw [inData_eq_false noData reached] at kind
        rw [Sweep.Reads] at reads
        cases item : Step.item _ with
        | code instruction argument =>
            rw [item] at reads
            exact ⟨instruction, argument, rfl, reads⟩
        | data value =>
            rw [item] at kind
            cases kind

theorem offsets_eq_boundaries (noData : sweep.options.allowData = false)
    (reached : sweep.Reaches steps cursor ended) :
    steps.map Step.offset = (List.range steps.length).map (boundary sweep.image sweep.start) ∧
      cursor.offset = boundary sweep.image sweep.start steps.length := by
  induction reached with
  | first => exact ⟨rfl, rfl⟩
  | @pass steps before after step ended reached turned ih =>
      have passes := Sweep.passes_of_turn turned
      obtain ⟨instruction, argument, item, decoded⟩ :=
        code_of_passed noData (reached.pass turned)
          (List.mem_append_right steps (List.mem_singleton_self step))
      have here : step.offset = boundary sweep.image sweep.start steps.length :=
        passes.offset_eq.trans ih.2
      have size : step.item.size = sizeAt sweep.image step.offset := by
        rw [item, ← size_eq_sizeAt decoded]
        rfl
      constructor
      · simp [List.range_succ, ih.1, here]
      · rw [passes.after_offset, size, List.length_append, List.length_singleton, boundary, here]

theorem passed_at_boundary (noData : sweep.options.allowData = false)
    (reached : sweep.Reaches steps cursor ended) {i : Nat} (passed : i < steps.length) :
    ∃ step ∈ steps, step.offset = boundary sweep.image sweep.start i ∧
      ∃ instruction argument, step.item = .code instruction argument ∧
        Instruction.decode? sweep.byte? step.offset = some instruction := by
  have offsets := (offsets_eq_boundaries noData reached).1
  have member : boundary sweep.image sweep.start i ∈ steps.map Step.offset := by
    rw [offsets]
    exact List.mem_map_of_mem (List.mem_range.mpr passed)
  obtain ⟨step, inSteps, here⟩ := List.mem_map.mp member
  exact ⟨step, inSteps, here, code_of_passed noData reached inSteps⟩

theorem fits_of_lt (noData : sweep.options.allowData = false)
    (reached : sweep.Reaches steps cursor ended) {i : Nat} (passed : i < steps.length) :
    Fits sweep.image (boundary sweep.image sweep.start i) := by
  obtain ⟨step, inSteps, here, instruction, _, _, decoded⟩ :=
    passed_at_boundary noData reached passed
  rw [← here]
  exact decode?_isSome_iff_fits.mp ⟨instruction, decoded⟩

theorem visited_iff (noData : sweep.options.allowData = false)
    (reached : sweep.Reaches steps cursor ended) (address : Nat) :
    Visited steps address ↔ ∃ k < steps.length,
      Bank.localAddress (boundary sweep.image sweep.start k) = address := by
  have offsets := (offsets_eq_boundaries noData reached).1
  calc Visited steps address
      ↔ ∃ offset ∈ steps.map Step.offset, Bank.localAddress offset = address := by
        simp [Visited]
    _ ↔ _ := by
        rw [offsets]
        simp

theorem asked_iff (noData : sweep.options.allowData = false)
    (reached : sweep.Reaches steps cursor ended) (address : Nat) :
    Asked sweep.start steps address ↔ ∃ j < steps.length, ∃ target : Nat,
      jump? sweep.image (boundary sweep.image sweep.start j) = some (target : Int) ∧
        sweep.start ≤ target ∧ Bank.localAddress target = address := by
  have offsets := (offsets_eq_boundaries noData reached).1
  have jumps : ∀ step ∈ steps, ∀ target : Nat, step.target? = some target ↔
      jump? sweep.image step.offset = some (target : Int) := by
    intro step passed target
    obtain ⟨instruction, argument, item, decoded⟩ := code_of_passed noData reached passed
    simp only [Step.target?, item]
    exact target?_eq_some_iff_jump? decoded
  calc Asked sweep.start steps address
      ↔ ∃ step ∈ steps, ∃ target : Nat,
          jump? sweep.image step.offset = some (target : Int) ∧ sweep.start ≤ target ∧
            Bank.localAddress target = address := by
        refine exists_congr fun step => and_congr_right fun passed => ?_
        simp only [jumps step passed]
    _ ↔ ∃ offset ∈ steps.map Step.offset, ∃ target : Nat,
          jump? sweep.image offset = some (target : Int) ∧ sweep.start ≤ target ∧
            Bank.localAddress target = address := by simp
    _ ↔ _ := by
        rw [offsets]
        simp

theorem allDefined_code_iff_landed (noData : sweep.options.allowData = false)
    (reached : sweep.Reaches steps cursor ended) {n : Nat} (count : steps.length = n + 1) :
    cursor.labels.allDefined .code = true ↔ Landed sweep.image sweep.start n := by
  rw [reached.allDefined_code_iff]
  simp only [visited_iff noData reached, asked_iff noData reached, count, Nat.lt_succ_iff]
  constructor
  · intro landed j passed target jump inside
    exact landed _ ⟨j, passed, target, jump, inside, rfl⟩
  · rintro landed address ⟨j, passed, target, jump, inside, rfl⟩
    exact landed j passed target jump inside

/-- A turn ends a sweep that takes no data exactly where the plain sweep may end. -/
theorem ended_iff_mayEnd (noData : sweep.options.allowData = false) {after : Cursor} {step : Step}
    (reached : sweep.Reaches steps cursor false)
    (turned : (sweep.turn cursor).passed? = some (step, after, ended)) :
    ended = true ↔ MayEnd sweep.image sweep.start sweep.options steps.length := by
  have reached' := reached.pass turned
  have passes := Sweep.passes_of_turn turned
  have count : (steps ++ [step]).length = steps.length + 1 := by simp
  have fits : ∀ i ≤ steps.length, Fits sweep.image (boundary sweep.image sweep.start i) :=
    fun i passed => fits_of_lt noData reached' (by omega)
  have behind : after.offset = boundary sweep.image sweep.start (steps.length + 1) := by
    rw [← count]
    exact (offsets_eq_boundaries noData reached').2
  have here : step.offset = boundary sweep.image sweep.start steps.length :=
    passes.offset_eq.trans (offsets_eq_boundaries noData reached).2
  have landed := allDefined_code_iff_landed noData reached' count
  obtain ⟨instruction, argument, item, decoded⟩ :=
    code_of_passed noData reached' (List.mem_append_right steps (List.mem_singleton_self step))
  have read := (byte?_eq_some_iff.mp (Instruction.opcode_of_decode? decoded)).2
  obtain ⟨taken, labels, offset, data, settles⟩ := passes.settles
  have code : taken.inData = false := by
    have before := inData_eq_false noData reached
    cases kind : taken.inData with
    | false => rfl
    | true => rw [before] at data; exact absurd (data kind) (by simp)
  have opcode : step.item.firstByte = instruction.opcode := by rw [item]; rfl
  have passedStop : (decide (sweep.stop ≤ taken.offset) || sweep.options.stop.isNone) = true ↔
      ∀ stop, sweep.options.stop = some stop →
        stop ≤ boundary sweep.image sweep.start (steps.length + 1) := by
    rw [offset, behind]
    rw [Sweep.stop]
    cases sweep.options.stop <;> simp
  have flow : Opcode.endsFlow step.item.firstByte = true ↔ ∃ opcode ∈ Opcode.flowEnds,
      sweep.image[boundary sweep.image sweep.start steps.length]? = some opcode := by
    rw [opcode, Opcode.endsFlow_iff, ← here, read]
    simp
  have mayEnd : sweep.mayEnd taken = true ↔
      (∀ stop, sweep.options.stop = some stop →
        stop ≤ boundary sweep.image sweep.start (steps.length + 1)) ∧
      Landed sweep.image sweep.start steps.length := by
    rw [Sweep.mayEnd]
    rw [Bool.and_eq_true, passedStop, labels, landed]
  have stops : sweep.stop = sweep.options.stop.getD (Bank.lastOffset sweep.start) := rfl
  rw [settles.ended_iff, onward_eq_stop_iff noData step.item taken code, flow, mayEnd, offset,
    behind, stops]
  exact ⟨fun ends => ⟨fits, ends⟩, fun ends => ends.2⟩

/-! ## Where the run stands -/

/-- A run that goes on has passed no instruction behind which it might have ended, and a run at its
end has just passed the first one. -/
theorem isLeast_mayEnd (noData : sweep.options.allowData = false)
    (reached : sweep.Reaches steps cursor ended) :
    if ended then ∃ n, steps.length = n + 1 ∧
      IsLeast {n | MayEnd sweep.image sweep.start sweep.options n} n
    else ∀ n < steps.length, ¬MayEnd sweep.image sweep.start sweep.options n := by
  induction reached with
  | first => simp
  | @pass steps before after step ended reached turned ih =>
      have earlier : ∀ n < steps.length, ¬MayEnd sweep.image sweep.start sweep.options n := by
        simpa using ih
      have here := ended_iff_mayEnd noData reached turned
      cases ended with
      | true =>
          refine ⟨steps.length, by simp, here.mp rfl, fun n may => ?_⟩
          exact Nat.le_of_not_lt fun before => earlier n before may
      | false =>
          intro n passed may
          rcases Nat.lt_succ_iff_lt_or_eq.mp (by simpa using passed) with before | rfl
          · exact earlier n before may
          · cases here.mpr may

theorem run_of_finished (noData : sweep.options.allowData = false)
    (finished : sweep.run.finished = true) :
    ∃ n, IsLeast {n | MayEnd sweep.image sweep.start sweep.options n} n ∧
      sweep.run.cursor.offset = boundary sweep.image sweep.start (n + 1) := by
  have reached := sweep.reaches_run
  rw [finished] at reached
  obtain ⟨n, count, least⟩ : ∃ n, sweep.run.steps.toList.length = n + 1 ∧
      IsLeast {n | MayEnd sweep.image sweep.start sweep.options n} n := by
    simpa using isLeast_mayEnd noData reached
  refine ⟨n, least, ?_⟩
  rw [(offsets_eq_boundaries noData reached).2, count]

theorem run_of_unfinished (noData : sweep.options.allowData = false)
    (unfinished : sweep.run.finished = false) :
    (∀ n, ¬MayEnd sweep.image sweep.start sweep.options n) ∧
      ∃ i, IsLeast {i | ¬Fits sweep.image (boundary sweep.image sweep.start i)} i ∧
        sweep.run.cursor.offset = boundary sweep.image sweep.start i := by
  have reached := sweep.reaches_run
  rw [unfinished] at reached
  have short := Sweep.take?_eq_none_of_turn (Sweep.turn_of_run_unfinished unfinished)
  have here := (offsets_eq_boundaries noData reached).2
  have never : ∀ n < sweep.run.steps.toList.length,
      ¬MayEnd sweep.image sweep.start sweep.options n := by
    simpa using isLeast_mayEnd noData reached
  have noFit : ¬Fits sweep.image
      (boundary sweep.image sweep.start sweep.run.steps.toList.length) := by
    rw [← here, ← decode?_isSome_iff_fits]
    rintro ⟨instruction, decoded⟩
    rw [inData_eq_false noData reached] at short
    simp [Sweep.take?, decoded] at short
  refine ⟨fun n may => ?_, _, ⟨noFit, fun i unfit => ?_⟩, here⟩
  · rcases Nat.lt_or_ge n sweep.run.steps.toList.length with before | behind
    · exact never n before may
    · exact noFit (may.1 _ behind)
  · exact Nat.le_of_not_lt fun before => unfit (fits_of_lt noData reached before)

theorem objection?_eq_none (inside : sweep.start < ceiling sweep.image)
    (stopInside : ∀ stop, sweep.options.stop = some stop → stop ≤ Bank.capacity) :
    sweep.objection? = none := by
  have below : ¬sweep.ceiling ≤ sweep.start := Nat.not_le.mpr inside
  rw [Sweep.objection?]
  simp only [below, if_false]
  split
  · next stop given => simp [Nat.not_lt.mpr (stopInside stop given)]
  · rfl

/-- What a listing of an image comes to, label-free: the end of the plain sweep or the first
instruction that does not fit. -/
theorem disassemble_cases {image : ByteArray} (names : Names) {start : Nat} {options : Options}
    (inside : start < ceiling image) (noData : options.allowData = false)
    (stopInside : ∀ stop, options.stop = some stop → stop ≤ Bank.capacity) :
    (∃ n, IsLeast {n | MayEnd image start options n} n ∧
      ∃ listing, disassemble image names start options = .ok listing ∧
        listing.endOffset = boundary image start (n + 1)) ∨
    ((∀ n, ¬MayEnd image start options n) ∧
      ∃ i, IsLeast {i | ¬Fits image (boundary image start i)} i ∧
        disassemble image names start options = .error (.unterminated (boundary image start i)
          (Bank.ofOffset (boundary image start i)))) := by
  let sweep : Sweep := ⟨image, names, start, options⟩
  have noObjection : sweep.objection? = none := objection?_eq_none inside stopInside
  have noData : sweep.options.allowData = false := noData
  cases state : sweep.run.finished with
  | true =>
      obtain ⟨n, least, ends⟩ := run_of_finished noData state
      exact .inl ⟨n, least, _, Sweep.listing_of_finished noObjection state, ends⟩
  | false =>
      obtain ⟨never, i, least, stands⟩ := run_of_unfinished noData state
      refine .inr ⟨never, i, least, ?_⟩
      have failed := Sweep.listing_of_unfinished noObjection state
      rw [stands] at failed
      exact failed

theorem listed_of_isLeast {image : ByteArray} (names : Names) {start n : Nat} {options : Options}
    (noData : options.allowData = false)
    (stopInside : ∀ stop, options.stop = some stop → stop ≤ Bank.capacity)
    (least : IsLeast {n | MayEnd image start options n} n) :
    ∃ listing, disassemble image names start options = .ok listing ∧
      ∀ i ≤ n, ∃ step ∈ listing.steps.toList, step.offset = boundary image start i ∧
        ∃ instruction argument, step.item = .code instruction argument ∧
          image[boundary image start i]? = some instruction.opcode := by
  have inside : start < ceiling image := (least.1.1 0 (Nat.zero_le n)).1
  rcases disassemble_cases names inside noData stopInside with ⟨_, _, listing, ok, _⟩ | ⟨never, _⟩
  · refine ⟨listing, ok, fun i upTo => ?_⟩
    obtain ⟨_, _, reached⟩ := reaches_of_disassemble ok
    obtain ⟨m, count, least'⟩ : ∃ m, listing.steps.toList.length = m + 1 ∧
        IsLeast {n | MayEnd image start options n} m := by
      simpa using isLeast_mayEnd noData reached
    obtain rfl := least.unique least'
    obtain ⟨step, passed, here, instruction, argument, code, decoded⟩ :=
      passed_at_boundary noData reached (by omega : i < listing.steps.toList.length)
    have read := Sweep.getElem?_of_byte? (Instruction.opcode_of_decode? decoded)
    exact ⟨step, passed, here, instruction, argument, code, here ▸ read⟩
  · exact absurd least.1 (never n)

/-! ## The outcome -/

/-- A sweep without data ends behind the first instruction of the plain sweep where it may, and
otherwise fails at the first one that does not fit; which names are known makes no difference. -/
theorem disassemble_outcome (image : ByteArray) (names : Names) (start : Nat) (options : Options)
    (inside : start < min image.size Bank.capacity) (noData : options.allowData = false)
    (stopInside : ∀ stop, options.stop = some stop → stop ≤ Bank.capacity) :
    (∀ n, IsLeast {n | MayEnd image start options n} n →
      ∃ listing, disassemble image names start options = .ok listing ∧
        listing.endOffset = boundary image start (n + 1)) ∧
    ((∀ n, ¬MayEnd image start options n) →
      ∃ i, IsLeast {i | ¬Fits image (boundary image start i)} i ∧
        disassemble image names start options = .error (.unterminated (boundary image start i)
          (Bank.ofOffset (boundary image start i)))) ∧
    ∀ names', (disassemble image names' start options).map Listing.endOffset =
      (disassemble image names start options).map Listing.endOffset := by
  refine ⟨fun n least => ?_, fun never => ?_, fun names' => ?_⟩
  · rcases disassemble_cases names inside noData stopInside with
      ⟨m, least', done⟩ | ⟨never, _⟩
    · rwa [least.unique least']
    · exact absurd least.1 (never n)
  · rcases disassemble_cases names inside noData stopInside with ⟨m, least', _⟩ | ⟨_, failed⟩
    · exact absurd least'.1 (never m)
    · exact failed
  · rcases disassemble_cases names inside noData stopInside with
      ⟨n, least, listing, done, ends⟩ | ⟨never, i, least, failed⟩
    · rcases disassemble_cases names' inside noData stopInside with
        ⟨n', least', listing', done', ends'⟩ | ⟨never', _⟩
      · simp [done, done', Except.map, ends, ends', least.unique least']
      · exact absurd least.1 (never' n)
    · rcases disassemble_cases names' inside noData stopInside with
        ⟨n', least', _⟩ | ⟨_, i', least', failed'⟩
      · exact absurd least'.1 (never n')
      · simp [failed, failed', least.unique least', Except.map]

/-- A jump over a return keeps the sweep going up to the return that it lands on. -/
theorem disassemble_outcome_of_jump_over_return :
    let image := ByteArray.mk #[0x20, 0x01, 0xc9, 0xc9]
    0 < min image.size Bank.capacity ∧ IsLeast {n | MayEnd image 0 {} n} 2 ∧
      ∃ listing, disassemble image .empty 0 {} = .ok listing ∧ listing.endOffset = 4 := by
  have least : IsLeast {n | MayEnd (ByteArray.mk #[0x20, 0x01, 0xc9, 0xc9]) 0 {} n} 2 := by
    refine ⟨by decide, fun n may => Nat.le_of_not_lt fun before => ?_⟩
    revert may
    have table : ∀ n < 2, ¬MayEnd (ByteArray.mk #[0x20, 0x01, 0xc9, 0xc9]) 0 {} n := by decide
    exact table n before
  exact ⟨by decide, least,
    (disassemble_outcome _ .empty 0 {} (by decide) rfl (by simp)).1 2 least⟩

end Plain

end Sm83
