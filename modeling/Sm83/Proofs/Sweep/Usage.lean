import Sm83.Proofs.Sweep.DataLabels

/-!
# Labels in use

The usage of a label is no number of references: passing its definition raises it too, and jumps and
loads set it back. Still, while no address is visited twice, a label in use is one that a step
refers to, which `Reaches.refersTo_of_isUsed` carries along a run.
-/

namespace Sm83

/-- A step refers to the label of a kind for an address. -/
def Step.RefersTo (step : Step) (kind : LabelKind) (address : Nat) : Prop :=
  ∃ instruction, step.item = .code instruction (some (.label kind address))

namespace Sweep

variable {sweep : Sweep} {labels after : LabelMap} {offset target : Nat} {kind : LabelKind}
  {address : Nat} {shown : Argument} {instruction : Instruction} {argument : Option Argument}

theorem isUsed_of_announce (used : (sweep.announce labels offset).1.isUsed kind address = true) :
    labels.isUsed kind address = true ∨
      Bank.localAddress offset = address ∧ labels.contains kind address = true ∧
        (kind = .data → labels.contains .code address = false) := by
  by_cases here : Bank.localAddress offset = address
  · subst here
    refine .inr ⟨rfl, ?_⟩
    cases kind with
    | code =>
        rw [LabelMap.isUsed, get?_announce_code, announcedCode] at used
        cases found : labels.get? .code (Bank.localAddress offset) with
        | some label => exact ⟨LabelMap.contains_of_get? found, by simp⟩
        | none => simp [found, passedCodeLabel, Label.isUsed] at used
    | data =>
        rw [LabelMap.isUsed, get?_announce_data, announcedData] at used
        cases found : labels.get? .data (Bank.localAddress offset) with
        | some label =>
            refine ⟨LabelMap.contains_of_get? found, fun _ => ?_⟩
            cases known : labels.contains .code (Bank.localAddress offset) with
            | false => rfl
            | true => simp [found, known] at used
        | none => simp [found, passedDataLabel, dataLabel, Label.isUsed] at used
  · rw [LabelMap.isUsed, get?_announce_of_ne sweep labels kind here] at used
    exact .inl used

theorem RefersJump.isUsed_of_after (jumps : sweep.RefersJump labels target shown after)
    (used : after.isUsed kind address = true) :
    labels.isUsed kind address = true ∨ shown = .label kind address := by
  cases kind with
  | code =>
      by_cases there : Bank.localAddress target = address
      · subst there
        cases jumps with
        | known | asks => exact .inr rfl
        | behind => exact .inl (by simpa [LabelMap.isUsed] using used)
      · rw [LabelMap.isUsed, jumps.get?_code, if_neg there] at used
        exact .inl used
  | data =>
      rw [LabelMap.isUsed, jumps.get?_data] at used
      split at used
      · cases found : labels.get? .data address <;> simp [found] at used
      · exact .inl used

theorem Refers.isUsed_of_after (refers : sweep.Refers labels offset instruction argument after)
    (used : after.isUsed kind address = true) :
    labels.isUsed kind address = true ∨ argument = some (.label kind address) := by
  cases jump : instruction.target? offset with
  | some target =>
      obtain ⟨shown, rfl, jumps⟩ := refers.refersJump jump
      exact (jumps.isUsed_of_after used).imp_right (congrArg some)
  | none =>
      cases kind with
      | code =>
          rw [LabelMap.isUsed, refers.get?_code_of_noJump jump] at used
          exact .inl used
      | data =>
          cases refers with
          | plain => exact .inl used
          | jump goes =>
              rw [jump] at goes
              cases goes
          | @explained word =>
              rw [LabelMap.isUsed, get?_yieldToCode] at used
              split at used
              · rw [yieldedLabel] at used
                cases found : labels.get? .data word <;>
                  simp [found, dataLabel, Label.isUsed, Label.unreferenced] at used
              · exact .inl used
          | @loads word =>
              by_cases there : word = address
              · exact .inr (by rw [there])
              · rw [LabelMap.isUsed, get?_referData, if_neg there] at used
                exact .inl used

variable {cursor behind : Cursor} {step : Step} {steps : List Step} {ended : Bool}

/-- What a turn leaves in use was in use before, or its step refers to it, or it was known for the
address of the step. -/
theorem Passes.isUsed_of_behind (passes : sweep.Passes cursor step behind ended)
    (used : behind.labels.isUsed kind address = true) :
    cursor.labels.isUsed kind address = true ∨ step.RefersTo kind address ∨
      Bank.localAddress step.offset = address ∧ cursor.labels.contains kind address = true ∧
        (kind = .data → cursor.labels.contains .code address = false) := by
  rcases passes.refers with ⟨_, _, same⟩ | ⟨instruction, argument, item, refers⟩
  · rw [same] at used
    exact (isUsed_of_announce used).imp_right .inr
  · rcases refers.isUsed_of_after used with announced | refersTo
    · exact (isUsed_of_announce announced).imp_right .inr
    · exact .inr (.inl ⟨instruction, refersTo ▸ item⟩)

/-- While no address is visited twice, one of the steps refers to every label in use. -/
theorem Reaches.refersTo_of_isUsed (reached : sweep.Reaches steps cursor ended)
    (once : (steps.map fun step => Bank.localAddress step.offset).Nodup)
    (used : cursor.labels.isUsed kind address = true) :
    ∃ step ∈ steps, step.RefersTo kind address := by
  induction reached with
  | first => simp [Sweep.first, LabelMap.isUsed] at used
  | @pass steps before after step ended reached turned ih =>
      have earlier (before : ∃ other ∈ steps, other.RefersTo kind address) :
          ∃ other ∈ steps ++ [step], other.RefersTo kind address := by
        obtain ⟨other, passed, refersTo⟩ := before
        exact ⟨other, List.mem_append_left _ passed, refersTo⟩
      rw [List.map_append, List.nodup_append] at once
      obtain ⟨onceBefore, _, apart⟩ := once
      rcases (passes_of_turn turned).isUsed_of_behind used with
        usedBefore | refersTo | ⟨here, known, unexplained⟩
      · exact earlier (ih onceBefore usedBefore)
      · exact ⟨step, by simp, refersTo⟩
      · cases kind with
        | code =>
            rcases (reached.contains_code_iff address).mp known with
              ⟨other, passed, there⟩ | ⟨other, passed, target, jump, inside, rfl⟩
            · exact absurd (there.trans here.symm)
                (apart _ (List.mem_map_of_mem passed) _ (by simp))
            · exact earlier ⟨other, passed, (reached.jump_label passed jump inside).1⟩
        | data =>
            exact earlier ((reached.data_of_unexplained (unexplained rfl)).1.mp known)

end Sweep

end Sm83
