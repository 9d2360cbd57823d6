import Sm83.Proofs.Instruction.Decode
import Sm83.Proofs.Sweep.Reach

/-!
# Code labels

A code label is made where a step is passed or where a jump asks for one, and it stays: its name
never changes and its references never get fewer. Its definition has been passed exactly if its
address has been, so all code labels are defined exactly if every jump has landed.
-/

namespace Sm83

/-! ## Labels that stay -/

/-- A label has stayed what it was; there may be more references to it. -/
structure Label.Keeps (label later : Label) : Prop where
  kind_eq : later.kind = label.kind
  address_eq : later.address = label.address
  name_eq : later.name = label.name
  usage_le : label.usage ≤ later.usage

theorem Label.Keeps.refl (label : Label) : label.Keeps label :=
  ⟨rfl, rfl, rfl, Nat.le_refl _⟩

theorem Label.Keeps.trans {label later last : Label} (first : label.Keeps later)
    (second : later.Keeps last) : label.Keeps last :=
  ⟨second.kind_eq.trans first.kind_eq, second.address_eq.trans first.address_eq,
    second.name_eq.trans first.name_eq, Nat.le_trans first.usage_le second.usage_le⟩

theorem Label.keeps_referenced (label : Label) : label.Keeps label.referenced :=
  ⟨rfl, rfl, rfl, Nat.le_succ _⟩

theorem Label.keeps_passed (label : Label) : label.Keeps label.passed :=
  ⟨rfl, rfl, rfl, Nat.le_refl _⟩

/-! ## Addresses that were passed or asked for -/

/-- One of the steps is at an address. -/
def Visited (steps : List Step) (address : Nat) : Prop :=
  ∃ step ∈ steps, Bank.localAddress step.offset = address

/-- One of the steps jumps to an address, from the start of the sweep on. -/
def Asked (start : Nat) (steps : List Step) (address : Nat) : Prop :=
  ∃ step ∈ steps, ∃ target, step.target? = some target ∧ start ≤ target ∧
    Bank.localAddress target = address

theorem visited_append_singleton {steps : List Step} {step : Step} {address : Nat} :
    Visited (steps ++ [step]) address ↔
      Visited steps address ∨ Bank.localAddress step.offset = address := by
  simp [Visited, or_and_right, exists_or]

theorem asked_append_singleton {start : Nat} {steps : List Step} {step : Step} {address : Nat} :
    Asked start (steps ++ [step]) address ↔ Asked start steps address ∨
      ∃ target, step.target? = some target ∧ start ≤ target ∧
        Bank.localAddress target = address := by
  simp [Asked, or_and_right, exists_or]

namespace Sweep

variable {sweep : Sweep} {labels after : LabelMap} {offset : Nat}

/-! ## Code labels after an announcement -/

theorem announce_keeps_code (sweep : Sweep) (offset : Nat) {address : Nat} {label : Label}
    (found : labels.get? .code address = some label) :
    ∃ later, (sweep.announce labels offset).1.get? .code address = some later ∧
      label.Keeps later ∧
      (later.defined = true ↔ label.defined = true ∨ Bank.localAddress offset = address) := by
  by_cases here : Bank.localAddress offset = address
  · subst here
    refine ⟨_, get?_announce_code sweep labels offset, ?_⟩
    simp only [announcedCode, found]
    exact ⟨label.keeps_referenced.trans label.referenced.keeps_passed, by simp [Label.passed]⟩
  · refine ⟨label, ?_, .refl label, by simp [here]⟩
    rw [get?_announce_of_ne sweep labels .code here, found]

theorem announce_makes_code {address : Nat} {label : Label}
    (missing : labels.get? .code address = none)
    (made : (sweep.announce labels offset).1.get? .code address = some label) :
    Bank.localAddress offset = address ∧ label = passedCodeLabel offset := by
  by_cases here : Bank.localAddress offset = address
  · subst here
    rw [get?_announce_code] at made
    simp only [announcedCode, missing, Option.some.injEq] at made
    exact ⟨rfl, made.symm⟩
  · rw [get?_announce_of_ne sweep labels .code here, missing] at made
    cases made

/-! ## Code labels after a reference -/

variable {instruction : Instruction} {argument : Option Argument} {target : Nat} {shown : Argument}

/-- A jump makes or counts the code label for the address of its target, but makes none for a target
before the start. -/
theorem RefersJump.get?_code (refers : sweep.RefersJump labels target shown after)
    (address : Nat) :
    after.get? .code address =
      if Bank.localAddress target = address then
        match labels.get? .code address with
        | some label => some label.referenced
        | none => if target < sweep.start then none else some (jumpLabel target)
      else labels.get? .code address := by
  by_cases here : Bank.localAddress target = address
  · subst here
    cases refers with
    | known found =>
        obtain ⟨label, found⟩ := LabelMap.contains_iff.mp found
        simp [LabelMap.get?_reference, found]
    | behind missing before =>
        simp [LabelMap.contains_eq_false_iff.mp missing, before]
    | asks missing inside =>
        simp [LabelMap.contains_eq_false_iff.mp missing, LabelMap.get?_insert, jumpLabel,
          Nat.not_lt.mpr inside]
  · cases refers <;> simp [LabelMap.get?_reference, LabelMap.get?_insert, jumpLabel, here]

theorem RefersJump.contains_target (refers : sweep.RefersJump labels target shown after)
    (inside : sweep.start ≤ target) :
    after.contains .code (Bank.localAddress target) = true := by
  rw [LabelMap.contains_iff, refers.get?_code]
  simp only [if_true, Nat.not_lt.mpr inside, if_false]
  cases labels.get? .code (Bank.localAddress target) <;> simp

theorem Refers.get?_code_of_noJump
    (refers : sweep.Refers labels offset instruction argument after)
    (noJump : instruction.target? offset = none) (address : Nat) :
    after.get? .code address = labels.get? .code address := by
  cases refers with
  | plain => rfl
  | jump goes =>
      rw [noJump] at goes
      cases goes
  | explained =>
      rw [yieldToCode]
      split <;> simp [LabelMap.get?_modify, LabelMap.get?_insert, dataLabel]
  | loads =>
      rw [referData]
      split <;> simp [LabelMap.get?_reference, LabelMap.get?_insert, dataLabel]

theorem Refers.keeps_code (refers : sweep.Refers labels offset instruction argument after)
    {address : Nat} {label : Label} (found : labels.get? .code address = some label) :
    ∃ later, after.get? .code address = some later ∧ label.Keeps later ∧
      later.defined = label.defined := by
  cases jump : instruction.target? offset with
  | none => exact ⟨label, by rw [refers.get?_code_of_noJump jump, found], .refl label, rfl⟩
  | some target =>
      obtain ⟨_, _, jumps⟩ := refers.refersJump jump
      rw [jumps.get?_code address]
      by_cases here : Bank.localAddress target = address
      · exact ⟨label.referenced, by simp [here, found], label.keeps_referenced, rfl⟩
      · exact ⟨label, by simp [here, found], .refl label, rfl⟩

theorem Refers.makes_code (refers : sweep.Refers labels offset instruction argument after)
    {address : Nat} {label : Label} (missing : labels.get? .code address = none)
    (made : after.get? .code address = some label) :
    ∃ target, instruction.target? offset = some target ∧ sweep.start ≤ target ∧
      Bank.localAddress target = address ∧ label = jumpLabel target := by
  cases jump : instruction.target? offset with
  | none =>
      rw [refers.get?_code_of_noJump jump, missing] at made
      cases made
  | some target =>
      obtain ⟨_, _, jumps⟩ := refers.refersJump jump
      rw [jumps.get?_code address] at made
      simp only [missing] at made
      split at made
      · next here =>
          split at made
          · cases made
          · next inside => exact ⟨target, rfl, by omega, here, by simpa using made.symm⟩
      · cases made

/-! ## Code labels after a whole turn -/

variable {cursor behind : Cursor} {step : Step} {ended : Bool}

theorem Passes.keeps_code (passes : sweep.Passes cursor step behind ended) {address : Nat}
    {label : Label} (found : cursor.labels.get? .code address = some label) :
    ∃ later, behind.labels.get? .code address = some later ∧ label.Keeps later ∧
      (later.defined = true ↔
        label.defined = true ∨ Bank.localAddress step.offset = address) := by
  obtain ⟨announced, foundThen, keeps, defined⟩ :=
    announce_keeps_code sweep step.offset found
  rcases passes.refers with ⟨_, _, same⟩ | ⟨_, _, _, refers⟩
  · exact ⟨announced, by rw [same, foundThen], keeps, defined⟩
  · obtain ⟨later, foundLater, keeps', same⟩ := refers.keeps_code foundThen
    exact ⟨later, foundLater, keeps.trans keeps', by rw [same, defined]⟩

theorem Passes.makes_code (passes : sweep.Passes cursor step behind ended) {address : Nat}
    {label : Label} (missing : cursor.labels.get? .code address = none)
    (made : behind.labels.get? .code address = some label) :
    (Bank.localAddress step.offset = address ∧ (passedCodeLabel step.offset).Keeps label ∧
        label.defined = true) ∨
      (Bank.localAddress step.offset ≠ address ∧ ∃ target, step.target? = some target ∧
        sweep.start ≤ target ∧ Bank.localAddress target = address ∧ label = jumpLabel target) := by
  cases foundThen : (sweep.announce cursor.labels step.offset).1.get? .code address with
  | some announced =>
      obtain ⟨here, rfl⟩ := announce_makes_code missing foundThen
      rcases passes.refers with ⟨_, _, same⟩ | ⟨_, _, _, refers⟩
      · rw [same, foundThen] at made
        cases made
        exact .inl ⟨here, .refl _, rfl⟩
      · obtain ⟨later, foundLater, keeps, same⟩ := refers.keeps_code foundThen
        rw [made] at foundLater
        cases foundLater
        exact .inl ⟨here, keeps, same⟩
  | none =>
      have elsewhere : Bank.localAddress step.offset ≠ address := by
        rintro rfl
        rw [get?_announce_code] at foundThen
        cases foundThen
      rcases passes.refers with ⟨_, _, same⟩ | ⟨instruction, argument, kind, refers⟩
      · rw [same, foundThen] at made
        cases made
      · obtain ⟨target, goes, inside, there, rfl⟩ := refers.makes_code foundThen made
        have jump := Step.target?_eq_some_iff.mpr ⟨instruction, argument, kind, goes⟩
        exact .inr ⟨elsewhere, target, jump, inside, there, rfl⟩

theorem Passes.get?_code_here (passes : sweep.Passes cursor step behind ended) :
    ∃ label, behind.labels.get? .code (Bank.localAddress step.offset) = some label ∧
      (announcedCode cursor.labels step.offset).Keeps label := by
  have announced := get?_announce_code sweep cursor.labels step.offset
  rcases passes.refers with ⟨_, _, same⟩ | ⟨_, _, _, refers⟩
  · exact ⟨_, same ▸ announced, .refl _⟩
  · obtain ⟨label, found, keeps, _⟩ := refers.keeps_code announced
    exact ⟨label, found, keeps⟩

theorem Passes.contains_code_here (passes : sweep.Passes cursor step behind ended) :
    behind.labels.contains .code (Bank.localAddress step.offset) = true := by
  obtain ⟨label, found, _⟩ := passes.get?_code_here
  exact LabelMap.contains_of_get? found

theorem Passes.contains_target (passes : sweep.Passes cursor step behind ended)
    (jump : step.target? = some target) (inside : sweep.start ≤ target) :
    behind.labels.contains .code (Bank.localAddress target) = true := by
  obtain ⟨_, _, _, jumps⟩ := passes.refersJump jump
  exact jumps.contains_target inside

/-- The code labels that a turn leaves are those it finds, the one at its offset and the one that
a jump asks for. -/
theorem Passes.contains_code_iff (passes : sweep.Passes cursor step behind ended) {address : Nat} :
    behind.labels.contains .code address = true ↔
      cursor.labels.contains .code address = true ∨ Bank.localAddress step.offset = address ∨
        ∃ target, step.target? = some target ∧ sweep.start ≤ target ∧
          Bank.localAddress target = address := by
  constructor
  · intro present
    obtain ⟨label, made⟩ := LabelMap.contains_iff.mp present
    cases before : cursor.labels.get? .code address with
    | some label => exact .inl (LabelMap.contains_of_get? before)
    | none =>
        rcases passes.makes_code before made with ⟨here, _⟩ | ⟨_, target, jump, inside, there, _⟩
        · exact .inr (.inl here)
        · exact .inr (.inr ⟨target, jump, inside, there⟩)
  · rintro (present | rfl | ⟨target, jump, inside, rfl⟩)
    · obtain ⟨label, found⟩ := LabelMap.contains_iff.mp present
      obtain ⟨later, foundLater, _⟩ := passes.keeps_code found
      exact LabelMap.contains_of_get? foundLater
    · exact passes.contains_code_here
    · exact passes.contains_target jump inside

/-! ## Code labels of a run -/

variable {steps : List Step}

/-- The code labels of a run are for the addresses it has visited or jumps to from its start on. -/
theorem Reaches.contains_code_iff (reached : sweep.Reaches steps cursor ended) (address : Nat) :
    cursor.labels.contains .code address = true ↔
      Visited steps address ∨ Asked sweep.start steps address := by
  induction reached with
  | first => simp [Sweep.first, LabelMap.contains, Visited, Asked]
  | pass _ turned ih =>
      rw [(passes_of_turn turned).contains_code_iff, ih, visited_append_singleton,
        asked_append_singleton]
      grind

/-- The definition of a code label has been passed exactly if its address has been visited. -/
theorem Reaches.defined_code_iff (reached : sweep.Reaches steps cursor ended) {address : Nat}
    {label : Label} (found : cursor.labels.get? .code address = some label) :
    label.defined = true ↔ Visited steps address := by
  induction reached generalizing label with
  | first => simp [Sweep.first] at found
  | @pass steps cursor behind step ended reached turned ih =>
      have passes := passes_of_turn turned
      rw [visited_append_singleton]
      cases before : cursor.labels.get? .code address with
      | some earlier =>
          obtain ⟨later, foundLater, _, defined⟩ := passes.keeps_code before
          rw [found] at foundLater
          cases foundLater
          rw [defined, ih before]
      | none =>
          have unvisited : ¬Visited steps address := by
            intro visited
            have present := (reached.contains_code_iff address).mpr (.inl visited)
            rw [LabelMap.contains_eq_false_iff.mpr before] at present
            cases present
          rcases passes.makes_code before found with ⟨here, _, defined⟩ | ⟨elsewhere, target, made⟩
          · simp [here, defined]
          · obtain ⟨_, _, _, rfl⟩ := made
            simp [jumpLabel, unvisited, elsewhere]

/-- All code labels are defined exactly if every address that is jumped to has been visited. -/
theorem Reaches.allDefined_code_iff (reached : sweep.Reaches steps cursor ended) :
    cursor.labels.allDefined .code = true ↔
      ∀ address, Asked sweep.start steps address → Visited steps address := by
  rw [LabelMap.allDefined_iff]
  constructor
  · intro allDefined address asked
    obtain ⟨label, found⟩ :=
      LabelMap.contains_iff.mp ((reached.contains_code_iff address).mpr (.inr asked))
    exact (reached.defined_code_iff found).mp (allDefined address label found)
  · intro landed address label found
    rw [reached.defined_code_iff found]
    rcases (reached.contains_code_iff address).mp (LabelMap.contains_of_get? found) with
      visited | asked
    · exact visited
    · exact landed address asked

theorem allDefined_code_of_stop {item : Item} {taken : Cursor}
    (noHardStop : sweep.options.hardStop = false) (stops : sweep.onward item taken = .stop) :
    taken.labels.allDefined .code = true := by
  rcases onward_eq_stop_iff.mp stops with ⟨hardStop, _⟩ | ⟨_, _, may⟩
  · rw [noHardStop] at hardStop
    cases hardStop
  · exact (mayEnd_iff.mp may).2

theorem Reaches.landed (reached : sweep.Reaches steps cursor true)
    (noHardStop : sweep.options.hardStop = false) {address : Nat}
    (asked : Asked sweep.start steps address) : Visited steps address := by
  apply reached.allDefined_code_iff.mp _ address asked
  cases reached with
  | pass _ turned =>
      obtain ⟨taken, labels, _, _, settles⟩ := (passes_of_turn turned).settles
      rw [← labels]
      exact allDefined_code_of_stop noHardStop (settles.ended_iff.mp rfl)

end Sweep

end Sm83
