import Sm83.Proofs.Bank.Address
import Sm83.Proofs.Sweep.CodeLabels

/-!
# Where code labels come from

The name of a code label is that of an offset with its address. A relative jump reaches no further
than half a page, so the label that it refers to is named after its target, unless the sweep has
been at that address in an earlier bank.
-/

namespace Sm83

namespace Instruction

variable {byte? : Nat → Option UInt8} {offset target : Nat} {instruction : Instruction}

theorem target?_near (decoded : decode? byte? offset = some instruction)
    (jump : instruction.target? offset = some target) :
    instruction.size = 2 ∧ target < offset + 130 ∧ offset < target + 127 := by
  obtain ⟨distance, operand, landing⟩ := target?_eq_some_iff.mp jump
  obtain ⟨relative, value, _, rfl⟩ := (operand_eq_distance_iff_of_decode? decoded).mp operand
  have bounds := Opcode.signed_bounds value
  rw [Sweep.jumpTarget] at landing
  refine ⟨?_, by omega, by omega⟩
  exact Encoding.size_eq_two_of_distance ((Encoding.operand_eq_distance_iff _).mpr relative)

end Instruction

namespace Sweep

variable {sweep : Sweep} {steps : List Step} {cursor behind : Cursor} {step : Step}
  {ended : Bool} {target : Nat}

theorem Passes.target?_near (passes : sweep.Passes cursor step behind ended)
    (jump : step.target? = some target) :
    behind.offset = step.offset + 2 ∧ target < step.offset + 130 ∧
      step.offset < target + 127 := by
  obtain ⟨instruction, argument, kind, goes⟩ := Step.target?_eq_some_iff.mp jump
  have reads := passes.reads
  simp only [Reads, kind] at reads
  obtain ⟨size, near⟩ := Instruction.target?_near reads goes
  have advance : step.item.size = 2 := by
    rw [kind]
    exact size
  rw [passes.after_offset, advance]
  exact ⟨rfl, near⟩

/-! ## Steps where they were passed -/

/-- Every step of a run was passed by a turn behind the steps before it, and the code labels of that
turn have stayed. -/
theorem Reaches.at_step {earlier later : List Step}
    (reached : sweep.Reaches (earlier ++ step :: later) cursor ended) :
    ∃ before behind ended', sweep.Reaches earlier before false ∧
      (sweep.turn before).passed? = some (step, behind, ended') ∧
      ∀ address label, behind.labels.get? .code address = some label →
        ∃ last, cursor.labels.get? .code address = some last ∧ label.Keeps last := by
  generalize whole : earlier ++ step :: later = steps at reached
  induction reached generalizing later with
  | first => simp at whole
  | @pass steps before after last ended reached turned ih =>
      rcases List.eq_nil_or_concat later with rfl | ⟨later, last', rfl⟩
      · obtain ⟨rfl, rfl⟩ := List.append_singleton_inj.mp whole
        exact ⟨before, after, ended, reached, turned, fun _ label found =>
          ⟨label, found, .refl label⟩⟩
      · rw [List.concat_eq_append, ← List.cons_append, ← List.append_assoc] at whole
        obtain ⟨sameSteps, rfl⟩ := List.append_singleton_inj.mp whole
        obtain ⟨before', behind, ended', reached', turned', stayed⟩ := ih sameSteps
        refine ⟨before', behind, ended', reached', turned', fun address label found => ?_⟩
        obtain ⟨later, foundLater, keeps⟩ := stayed address label found
        obtain ⟨last, foundLast, keeps', _⟩ := (passes_of_turn turned).keeps_code foundLater
        exact ⟨last, foundLast, keeps.trans keeps'⟩

theorem Reaches.passing (reached : sweep.Reaches steps cursor ended) (passed : step ∈ steps) :
    ∃ earlier before behind ended', sweep.Reaches earlier before false ∧
      sweep.Reaches (earlier ++ [step]) behind ended' ∧
      sweep.Passes before step behind ended' ∧
      ∀ address label, behind.labels.get? .code address = some label →
        ∃ later, cursor.labels.get? .code address = some later ∧ label.Keeps later := by
  obtain ⟨earlier, later, rfl⟩ := List.append_of_mem passed
  obtain ⟨before, behind, ended', reached', turned, stayed⟩ := reached.at_step
  exact ⟨earlier, before, behind, ended', reached', reached'.pass turned, passes_of_turn turned,
    stayed⟩

theorem Reaches.referred (reached : sweep.Reaches steps cursor ended) (passed : step ∈ steps)
    {instruction : Instruction} {argument : Option Argument}
    (code : step.item = .code instruction argument) :
    Instruction.decode? sweep.byte? step.offset = some instruction ∧
      ∃ labels, (sweep.refer labels step.offset instruction).1 = argument := by
  obtain ⟨_, before, _, _, _, _, passes, _⟩ := reached.passing passed
  have takes := passes.takes
  rw [code] at takes
  exact ⟨takes.1, _, congrArg Prod.fst takes.2⟩

theorem Reaches.start_le (reached : sweep.Reaches steps cursor ended) (passed : step ∈ steps) :
    sweep.start ≤ step.offset :=
  (reached.tiles.bounds passed).1

theorem Reaches.start_le_offset (reached : sweep.Reaches steps cursor ended) :
    sweep.start ≤ cursor.offset :=
  reached.tiles.le

/-! ## Origins -/

/-- A code label for an address has its name from an offset with that address, not before the start
of the sweep and not far behind the cursor. -/
theorem Reaches.origin (reached : sweep.Reaches steps cursor ended) {address : Nat} {label : Label}
    (found : cursor.labels.get? .code address = some label) :
    label.kind = .code ∧ label.address = address ∧
      ∃ origin, sweep.start ≤ origin ∧ origin < cursor.offset + 128 ∧
        Bank.localAddress origin = address ∧ label.name = LabelKind.code.nameAt origin := by
  induction reached generalizing label with
  | first => simp [Sweep.first] at found
  | @pass steps before after step ended reached turned ih =>
      have passes := passes_of_turn turned
      have advance := passes.after_offset
      have here := passes.offset_eq
      have start := reached.start_le_offset
      cases known : before.labels.get? .code address with
      | some earlier =>
          obtain ⟨later, foundLater, keeps, _⟩ := passes.keeps_code known
          rw [found] at foundLater
          cases foundLater
          obtain ⟨kind, atAddress, origin, above, below, there, name⟩ := ih known
          exact ⟨keeps.kind_eq.trans kind, keeps.address_eq.trans atAddress, origin, above,
            by omega, there, keeps.name_eq.trans name⟩
      | none =>
          rcases passes.makes_code known found with
            ⟨there, keeps, _⟩ | ⟨_, target, jump, inside, there, rfl⟩
          · exact ⟨keeps.kind_eq, keeps.address_eq.trans there, step.offset, by omega, by omega,
              there, keeps.name_eq⟩
          · have near := passes.target?_near jump
            exact ⟨rfl, there, target, inside, by omega, there, rfl⟩

/-! ## What jumps refer to -/

theorem RefersJump.isUsed_target {labels after : LabelMap} {shown : Argument}
    (refers : sweep.RefersJump labels target shown after) (inside : sweep.start ≤ target) :
    shown = .label .code (Bank.localAddress target) ∧
      after.isUsed .code (Bank.localAddress target) = true := by
  constructor
  · cases refers with
    | known | asks => rfl
    | behind _ before => omega
  · rw [LabelMap.isUsed_iff, refers.get?_code]
    simp only [if_true, Nat.not_lt.mpr inside, if_false]
    cases labels.get? .code (Bank.localAddress target) <;> simp [Label.referenced, jumpLabel]

theorem RefersJump.routine_of_missing {labels after : LabelMap} {shown : Argument}
    (refers : sweep.RefersJump labels target shown after)
    (missing : labels.contains .code (Bank.localAddress target) = false)
    (before : target < sweep.start) : shown = .routine target := by
  cases refers with
  | known found =>
      rw [missing] at found
      cases found
  | behind => rfl
  | asks _ inside => omega

/-- A jump that does not go to before the start refers to a code label in use; it has its name from
an offset less than a bank behind the target. -/
theorem Reaches.jump_label (reached : sweep.Reaches steps cursor ended) (passed : step ∈ steps)
    (jump : step.target? = some target) (inside : sweep.start ≤ target) :
    (∃ instruction, step.item =
        .code instruction (some (.label .code (Bank.localAddress target)))) ∧
      ∃ label, cursor.labels.get? .code (Bank.localAddress target) = some label ∧
        0 < label.usage ∧ ∃ origin, sweep.start ≤ origin ∧ origin < target + Bank.size ∧
          Bank.localAddress origin = Bank.localAddress target ∧
          label.name = LabelKind.code.nameAt origin := by
  obtain ⟨earlier, before, behind, ended', _, through, passes, stayed⟩ := reached.passing passed
  obtain ⟨advance, _, near⟩ := passes.target?_near jump
  obtain ⟨instruction, shown, kind, jumps⟩ := passes.refersJump jump
  obtain ⟨rfl, used⟩ := jumps.isUsed_target inside
  refine ⟨⟨instruction, kind⟩, ?_⟩
  obtain ⟨label, found, positive⟩ := LabelMap.isUsed_iff.mp used
  obtain ⟨_, _, origin, above, below, there, name⟩ := through.origin found
  obtain ⟨later, foundLater, keeps⟩ := stayed _ _ found
  refine ⟨later, foundLater, Nat.lt_of_lt_of_le positive keeps.usage_le, origin, above, ?_,
    there, keeps.name_eq.trans name⟩
  rw [Bank.size]
  omega

theorem Reaches.routine_of_behind (reached : sweep.Reaches steps cursor ended)
    (passed : step ∈ steps) (jump : step.target? = some target) (before : target < sweep.start) :
    ∃ instruction, step.item = .code instruction (some (.routine target)) := by
  obtain ⟨earlier, cursor', behind, ended', reached', through, passes, _⟩ := reached.passing passed
  obtain ⟨_, _, near⟩ := passes.target?_near jump
  have start := reached.start_le passed
  have here := passes.offset_eq
  have distant : ∀ origin, sweep.start ≤ origin → origin < step.offset + 128 →
      Bank.localAddress origin ≠ Bank.localAddress target := by
    intro origin above below same
    have := Bank.eq_of_localAddress_of_near same.symm (by omega) (by unfold Bank.size; omega)
    omega
  have missing : (sweep.announce cursor'.labels step.offset).1.contains .code
      (Bank.localAddress target) = false := by
    rw [LabelMap.contains_eq_false_iff, get?_announce_of_ne]
    · cases known : cursor'.labels.get? .code (Bank.localAddress target) with
      | none => rfl
      | some label =>
          obtain ⟨_, _, origin, above, below, there, _⟩ := reached'.origin known
          exact absurd there (distant origin above (by omega))
    · exact distant step.offset start (by omega)
  obtain ⟨instruction, shown, kind, jumps⟩ := passes.refersJump jump
  rw [jumps.routine_of_missing missing before] at kind
  exact ⟨instruction, kind⟩

theorem Reaches.relative_of_neg (reached : sweep.Reaches steps cursor ended)
    (passed : step ∈ steps) {instruction : Instruction} {argument : Option Argument}
    {distance : Int} (kind : step.item = .code instruction argument)
    (jump : instruction.operand = .distance distance)
    (outside : jumpTarget step.offset distance < 0) :
    argument = some (.relative (2 + distance)) := by
  obtain ⟨_, labels, referred⟩ := reached.referred passed kind
  simp only [refer, jump, referJump] at referred
  split at referred
  · exact referred.symm
  · next landing =>
      rw [landing] at outside
      exact absurd outside (Int.not_lt.mpr (Int.natCast_nonneg _))

end Sweep

end Sm83
