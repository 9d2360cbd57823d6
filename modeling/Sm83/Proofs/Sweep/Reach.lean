import Sm83.Proofs.Instruction.Decode
import Sm83.Proofs.Sweep.Turn
import Sm83.Sweep.Run

/-!
# What a run reaches

`Reaches` builds the steps and the cursor of a run one turn at a time, so that what every turn
keeps holds of the whole run. The steps of a run lie side by side, from the start to the cursor,
and each of them is read off the image.
-/

namespace Sm83

namespace Sweep

/-- A run of a sweep has passed some steps and stands at a cursor, at its end or not. -/
inductive Reaches (sweep : Sweep) : List Step → Cursor → Bool → Prop where
  | first : Reaches sweep [] sweep.first false
  | pass {steps : List Step} {cursor after : Cursor} {step : Step} {ended : Bool}
      (reached : Reaches sweep steps cursor false)
      (turned : (sweep.turn cursor).passed? = some (step, after, ended)) :
      Reaches sweep (steps ++ [step]) after ended

theorem reaches_runFrom (sweep : Sweep) (steps : Array Step) (cursor : Cursor)
    (reached : sweep.Reaches steps.toList cursor false) :
    sweep.Reaches (sweep.runFrom steps cursor).steps.toList (sweep.runFrom steps cursor).cursor
      (sweep.runFrom steps cursor).finished := by
  fun_induction runFrom sweep steps cursor with
  | case1 steps cursor turned => exact reached
  | case2 steps cursor step after turned =>
      have passed : (sweep.turn cursor).passed? = some (step, after, true) := by
        simp [turned, Turn.passed?]
      simpa using reached.pass passed
  | case3 steps cursor step after turned ih =>
      have passed : (sweep.turn cursor).passed? = some (step, after, false) := by
        simp [turned, Turn.passed?]
      apply ih
      simpa using reached.pass passed

theorem turn_of_runFrom_unfinished (sweep : Sweep) (steps : Array Step) (cursor : Cursor)
    (unfinished : (sweep.runFrom steps cursor).finished = false) :
    (sweep.turn (sweep.runFrom steps cursor).cursor).passed? = none := by
  fun_induction runFrom sweep steps cursor with
  | case1 steps cursor turned => simp [turned, Turn.passed?]
  | case2 steps cursor step after turned => simp at unfinished
  | case3 steps cursor step after turned ih => exact ih unfinished

theorem reaches_run (sweep : Sweep) :
    sweep.Reaches sweep.run.steps.toList sweep.run.cursor sweep.run.finished :=
  reaches_runFrom sweep #[] sweep.first .first

theorem turn_of_run_unfinished {sweep : Sweep} (unfinished : sweep.run.finished = false) :
    (sweep.turn sweep.run.cursor).passed? = none :=
  turn_of_runFrom_unfinished sweep #[] sweep.first unfinished

end Sweep

/-! ## Listings -/

theorem Sweep.listing_of_finished {sweep : Sweep} (noObjection : sweep.objection? = none)
    (finished : sweep.run.finished = true) :
    sweep.listing = .ok ⟨sweep.start, sweep.stop, sweep.run.cursor.offset, sweep.run.steps,
      sweep.run.cursor.labels⟩ := by
  simp [Sweep.listing, noObjection, finished]

theorem Sweep.listing_of_unfinished {sweep : Sweep} (noObjection : sweep.objection? = none)
    (unfinished : sweep.run.finished = false) :
    sweep.listing = .error (.unterminated sweep.run.cursor.offset
      (Bank.ofOffset sweep.run.cursor.offset)) := by
  simp [Sweep.listing, noObjection, unfinished]

theorem Sweep.reaches_of_listing {sweep : Sweep} {listing : Listing}
    (ok : sweep.listing = .ok listing) :
    sweep.objection? = none ∧ listing.start = sweep.start ∧ listing.stop = sweep.stop ∧
      ∃ inData, sweep.Reaches listing.steps.toList ⟨listing.endOffset, inData, listing.labels⟩
        true := by
  cases objection : sweep.objection? with
  | some error => simp [Sweep.listing, objection] at ok
  | none =>
      cases state : sweep.run.finished with
      | false => simp [listing_of_unfinished objection state] at ok
      | true =>
          rw [listing_of_finished objection state] at ok
          cases ok
          have reached := sweep.reaches_run
          rw [state] at reached
          exact ⟨rfl, rfl, rfl, _, reached⟩

theorem reaches_of_disassemble {image : ByteArray} {names : Names} {start : Nat}
    {options : Options} {listing : Listing}
    (ok : disassemble image names start options = .ok listing) :
    listing.start = start ∧ ∃ inData, (Sweep.mk image names start options).Reaches
      listing.steps.toList ⟨listing.endOffset, inData, listing.labels⟩ true := by
  obtain ⟨_, atStart, _, reached⟩ := Sweep.reaches_of_listing ok
  exact ⟨atStart, reached⟩

/-! ## Steps side by side -/

/-- The steps lie side by side from one offset to another. -/
def Tiles : Nat → List Step → Nat → Prop
  | first, [], behind => first = behind
  | first, step :: steps, behind =>
    step.offset = first ∧ Tiles (first + step.item.size) steps behind

theorem tiles_append {first behind : Nat} {steps steps' : List Step} :
    Tiles first (steps ++ steps') behind ↔
      ∃ between, Tiles first steps between ∧ Tiles between steps' behind := by
  induction steps generalizing first with
  | nil => simp [Tiles]
  | cons step steps ih => simp [Tiles, ih, and_assoc]

theorem Tiles.le {first behind : Nat} {steps : List Step} (tiles : Tiles first steps behind) :
    first ≤ behind := by
  induction steps generalizing first with
  | nil => exact Nat.le_of_eq tiles
  | cons step steps ih =>
      have rest := ih tiles.2
      omega

theorem Tiles.around {first behind : Nat} {earlier later : List Step} {step : Step}
    (tiles : Tiles first (earlier ++ step :: later) behind) :
    Tiles first earlier step.offset ∧ Tiles (step.offset + step.item.size) later behind := by
  obtain ⟨between, before, rfl, rest⟩ := tiles_append.mp tiles
  exact ⟨before, rest⟩

theorem Tiles.bounds {first behind : Nat} {steps : List Step} {step : Step}
    (tiles : Tiles first steps behind) (passed : step ∈ steps) :
    first ≤ step.offset ∧ step.offset + step.item.size ≤ behind := by
  obtain ⟨earlier, later, rfl⟩ := List.append_of_mem passed
  obtain ⟨before, rest⟩ := tiles.around
  exact ⟨before.le, rest.le⟩

theorem Tiles.apart {first behind : Nat} {steps : List Step} {step other : Step}
    (tiles : Tiles first steps behind) (passed : step ∈ steps) (passed' : other ∈ steps) :
    other.offset ≤ step.offset ∨ step.offset + step.item.size ≤ other.offset := by
  obtain ⟨earlier, later, rfl⟩ := List.append_of_mem passed
  obtain ⟨before, rest⟩ := tiles.around
  rcases List.mem_append.mp passed' with inEarlier | here
  · have := (before.bounds inEarlier).2
    exact .inl (by omega)
  · rcases List.mem_cons.mp here with rfl | inLater
    · exact .inl (Nat.le_refl _)
    · exact .inr (rest.bounds inLater).1

theorem Tiles.pairwise_lt {first behind : Nat} {steps : List Step}
    (tiles : Tiles first steps behind) :
    steps.Pairwise fun step later => step.offset < later.offset := by
  induction steps generalizing first with
  | nil => exact .nil
  | cons step steps ih =>
      obtain ⟨here, rest⟩ := tiles
      refine .cons (fun later passed => ?_) (ih rest)
      have pos := step.item.size_pos
      have := (rest.bounds passed).1
      omega

theorem Tiles.covers {first behind : Nat} {steps : List Step} (tiles : Tiles first steps behind)
    {offset : Nat} (above : first ≤ offset) (below : offset < behind) :
    ∃ step ∈ steps, step.offset ≤ offset ∧ offset < step.offset + step.item.size := by
  induction steps generalizing first with
  | nil =>
      rw [Tiles] at tiles
      omega
  | cons step steps ih =>
      obtain ⟨here, rest⟩ := tiles
      rcases Nat.lt_or_ge offset (first + step.item.size) with inside | later
      · exact ⟨step, List.mem_cons_self, by omega, by omega⟩
      · obtain ⟨other, passed, covers⟩ := ih rest later
        exact ⟨other, List.mem_cons_of_mem _ passed, covers⟩

namespace Sweep

theorem Reaches.tiles {sweep : Sweep} {steps : List Step} {cursor : Cursor} {ended : Bool}
    (reached : sweep.Reaches steps cursor ended) : Tiles sweep.start steps cursor.offset := by
  induction reached with
  | first => rfl
  | pass _ turned ih =>
      have passes := passes_of_turn turned
      exact tiles_append.mpr ⟨_, ih, passes.offset_eq, by
        rw [← passes.offset_eq]
        exact passes.after_offset.symm⟩

theorem Reaches.start_lt {sweep : Sweep} {steps : List Step} {cursor : Cursor}
    (reached : sweep.Reaches steps cursor true) : sweep.start < cursor.offset := by
  cases reached with
  | @pass _ before _ step _ reached turned =>
      have passes := passes_of_turn turned
      have here := passes.offset_eq
      have behind := passes.after_offset
      have above := reached.tiles.le
      have pos := step.item.size_pos
      omega

/-! ## Steps read off the image -/

/-- The item of a step is what the image has at its offset. -/
def Reads (sweep : Sweep) (step : Step) : Prop :=
  match step.item with
  | .code instruction _ => Instruction.decode? sweep.byte? step.offset = some instruction
  | .data value => sweep.byte? step.offset = some value

theorem getElem?_of_byte? {sweep : Sweep} {offset : Nat} {value : UInt8}
    (read : sweep.byte? offset = some value) : sweep.image[offset]? = some value := by
  rw [byte?] at read
  split at read
  · exact read
  · cases read

theorem Reads.isSome {sweep : Sweep} {step : Step} (reads : sweep.Reads step) {k : Nat}
    (inside : k < step.item.size) : (sweep.byte? (step.offset + k)).isSome = true := by
  rw [Reads] at reads
  cases kind : step.item with
  | data value =>
      rw [kind] at reads inside
      obtain rfl : k = 0 := by simpa [Item.size] using inside
      exact Option.isSome_of_eq_some reads
  | code instruction argument =>
      rw [kind] at reads inside
      obtain ⟨opcode, first, rest⟩ := Instruction.decode?_isSome_iff.mp ⟨instruction, reads⟩
      have same := (Instruction.opcode_of_decode? reads).symm.trans first
      exact rest k (by rw [← Option.some.inj same]; exact inside)

theorem Passes.reads {sweep : Sweep} {cursor after : Cursor} {step : Step} {ended : Bool}
    (passes : sweep.Passes cursor step after ended) : sweep.Reads step := by
  have takes := passes.takes
  rw [Reads]
  cases kind : step.item with
  | code instruction argument =>
      rw [kind] at takes
      exact takes.1
  | data value =>
      rw [kind] at takes
      exact takes.1

theorem Reaches.reads {sweep : Sweep} {steps : List Step} {cursor : Cursor} {ended : Bool}
    (reached : sweep.Reaches steps cursor ended) {step : Step} (passed : step ∈ steps) :
    sweep.Reads step := by
  induction reached with
  | first => cases passed
  | pass _ turned ih =>
      rcases List.mem_append.mp passed with before | here
      · exact ih before
      · rw [List.mem_singleton.mp here]
        exact (passes_of_turn turned).reads

end Sweep

end Sm83
