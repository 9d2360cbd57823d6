import Sm83.Proofs.Sweep.Origins

/-!
# Data labels

A data label is made where a step is passed, where a word is loaded, or for a word that a code
label explains. It stays, too, but it can lose its references: to a code label that is in use for
the same address, and to a jump to that address.
-/

namespace Sm83

namespace Sweep

variable {sweep : Sweep} {labels after : LabelMap} {offset : Nat} {instruction : Instruction}
  {argument : Option Argument}

/-! ## Data labels after a reference -/

/-- The data label for an address after a load: one more reference, or a new label without any. -/
def loadedLabel (labels : LabelMap) (address offset : Nat) : Label :=
  match labels.get? .data address with
  | some label => label.referenced
  | none => dataLabel address offset false

theorem get?_referData (labels : LabelMap) (address offset address' : Nat) :
    (referData labels address offset).get? .data address' =
      if address = address' then some (loadedLabel labels address offset)
      else labels.get? .data address' := by
  simp only [referData, loadedLabel]
  cases found : labels.get? .data address with
  | none =>
      have missing := LabelMap.contains_eq_false_iff.mpr found
      simp [missing, LabelMap.get?_insert, dataLabel]
  | some label =>
      have present := LabelMap.contains_of_get? found
      simp [present, LabelMap.get?_reference, found]

/-- The data label for an address that a code label explains: the one that was there without its
references, or a new one that needs no definition. -/
def yieldedLabel (labels : LabelMap) (address offset : Nat) : Label :=
  match labels.get? .data address with
  | some label => label.unreferenced
  | none => dataLabel address offset true

theorem get?_yieldToCode (labels : LabelMap) (address offset address' : Nat) :
    (yieldToCode labels address offset).get? .data address' =
      if address = address' then some (yieldedLabel labels address offset)
      else labels.get? .data address' := by
  simp only [yieldToCode, yieldedLabel]
  cases found : labels.get? .data address with
  | none =>
      have missing := LabelMap.contains_eq_false_iff.mpr found
      simp [missing, LabelMap.get?_insert, dataLabel]
  | some label =>
      have present := LabelMap.contains_of_get? found
      simp [present, LabelMap.get?_modify, found]

theorem RefersJump.get?_data {target : Nat} {shown : Argument}
    (refers : sweep.RefersJump labels target shown after) (address : Nat) :
    after.get? .data address =
      if Bank.localAddress target = address then
        (labels.get? .data address).map Label.silenced
      else labels.get? .data address := by
  by_cases here : Bank.localAddress target = address
  · subst here
    cases refers <;>
      simp [LabelMap.get?_silence_data, LabelMap.get?_reference, LabelMap.get?_insert, jumpLabel]
  · cases refers <;>
      simp [LabelMap.get?_silence_data, LabelMap.get?_reference, LabelMap.get?_insert, jumpLabel,
        here]

/-! ## One label in use for an address -/

theorem announce_not_both_used (sweep : Sweep) (offset : Nat) {address : Nat}
    (apart : labels.isUsed .code address = true → labels.isUsed .data address = false)
    (code : (sweep.announce labels offset).1.isUsed .code address = true) :
    (sweep.announce labels offset).1.isUsed .data address = false := by
  simp only [LabelMap.isUsed] at *
  by_cases here : Bank.localAddress offset = address
  · subst here
    rw [get?_announce_code] at code
    rw [get?_announce_data]
    cases found : labels.get? .code (Bank.localAddress offset) with
    | none =>
        simp [announcedCode, found, passedCodeLabel, Label.isUsed] at code
    | some label =>
        have known := LabelMap.contains_of_get? found
        rw [announcedData]
        cases labels.get? .data (Bank.localAddress offset) with
        | none => simp [passedDataLabel, dataLabel, Label.isUsed]
        | some loaded => simp [known]
  · rw [get?_announce_of_ne sweep labels .code here] at code
    rw [get?_announce_of_ne sweep labels .data here]
    exact apart code

theorem RefersJump.not_both_used {target : Nat} {shown : Argument}
    (refers : sweep.RefersJump labels target shown after) {address : Nat}
    (apart : labels.isUsed .code address = true → labels.isUsed .data address = false)
    (code : after.isUsed .code address = true) : after.isUsed .data address = false := by
  simp only [LabelMap.isUsed] at *
  rw [refers.get?_code] at code
  rw [refers.get?_data]
  by_cases there : Bank.localAddress target = address
  · cases labels.get? .data address <;> simp [there]
  · simp only [there, if_false] at code ⊢
    exact apart code

theorem Refers.not_both_used (refers : sweep.Refers labels offset instruction argument after)
    {address : Nat}
    (apart : labels.isUsed .code address = true → labels.isUsed .data address = false)
    (code : after.isUsed .code address = true) : after.isUsed .data address = false := by
  cases jump : instruction.target? offset with
  | some target =>
      obtain ⟨_, _, jumps⟩ := refers.refersJump jump
      exact jumps.not_both_used apart code
  | none =>
      simp only [LabelMap.isUsed] at *
      rw [refers.get?_code_of_noJump jump] at code
      cases refers with
      | plain => exact apart code
      | jump goes =>
          rw [jump] at goes
          cases goes
      | @explained word =>
          rw [get?_yieldToCode]
          by_cases there : word = address
          · rw [yieldedLabel]
            cases labels.get? .data word <;>
              simp [there, dataLabel, Label.isUsed, Label.unreferenced]
          · simpa only [there, if_false] using apart code
      | @loads word _ unused =>
          rw [get?_referData]
          by_cases there : word = address
          · rw [← there] at code
            rw [LabelMap.isUsed] at unused
            rw [code] at unused
            cases unused
          · simpa only [there, if_false] using apart code

variable {cursor behind : Cursor} {step : Step} {steps : List Step} {ended : Bool}

theorem Passes.not_both_used (passes : sweep.Passes cursor step behind ended) {address : Nat}
    (apart : cursor.labels.isUsed .code address = true →
      cursor.labels.isUsed .data address = false)
    (code : behind.labels.isUsed .code address = true) :
    behind.labels.isUsed .data address = false := by
  have announced := announce_not_both_used sweep step.offset apart
  rcases passes.refers with ⟨_, _, same⟩ | ⟨_, _, _, refers⟩
  · rw [same] at code ⊢
    exact announced code
  · exact refers.not_both_used announced code

/-- No address has a code label and a data label that are both in use. -/
theorem Reaches.not_both_used (reached : sweep.Reaches steps cursor ended) {address : Nat}
    (code : cursor.labels.isUsed .code address = true) :
    cursor.labels.isUsed .data address = false := by
  induction reached with
  | first => simp [Sweep.first, LabelMap.isUsed]
  | pass _ turned ih => exact (passes_of_turn turned).not_both_used ih code

/-! ## Names of data labels -/

/-- Every data label has its name from an offset with its address. -/
def DataNamed (labels : LabelMap) : Prop :=
  ∀ address label, labels.get? .data address = some label →
    ∃ origin, Bank.localAddress origin = address ∧ label.name = LabelKind.data.nameAt origin

theorem announce_dataNamed (sweep : Sweep) (offset : Nat) (named : DataNamed labels) :
    DataNamed (sweep.announce labels offset).1 := by
  intro address label found
  by_cases here : Bank.localAddress offset = address
  · subst here
    rw [get?_announce_data] at found
    obtain rfl := Option.some.inj found
    rw [announcedData]
    cases before : labels.get? .data (Bank.localAddress offset) with
    | none => exact ⟨offset, rfl, rfl⟩
    | some earlier =>
        obtain ⟨origin, there, name⟩ := named _ _ before
        simp only
        split
        · exact ⟨origin, there, name⟩
        split
        · exact ⟨origin, there, name⟩
        · exact ⟨offset, rfl, rfl⟩
  · rw [get?_announce_of_ne sweep labels .data here] at found
    exact named address label found

theorem Refers.dataNamed (refers : sweep.Refers labels offset instruction argument after)
    (onCartridge : ∀ address, labels.contains .code address = true → address < Bank.windowEnd)
    (named : DataNamed labels) : DataNamed after := by
  intro address label found
  have shownAt {word : Nat} (inside : word < Bank.windowEnd) :
      Bank.localAddress (Bank.flatOffset word sweep.bank) = word :=
    Bank.localAddress_flatOffset inside
  cases refers with
  | plain => exact named address label found
  | jump goes jumps =>
      rw [jumps.get?_data] at found
      split at found
      · obtain ⟨earlier, before, rfl⟩ := Option.map_eq_some_iff.mp found
        exact named address earlier before
      · exact named address label found
  | @explained word _ used =>
      rw [get?_yieldToCode] at found
      split at found
      · next here =>
          subst here
          obtain rfl := Option.some.inj found
          rw [yieldedLabel]
          cases before : labels.get? .data word with
          | some earlier => exact named word earlier before
          | none =>
              have inside := onCartridge word (LabelMap.contains_of_isUsed used)
              exact ⟨_, shownAt inside, rfl⟩
      · exact named address label found
  | @loads word _ _ inside =>
      rw [get?_referData] at found
      split at found
      · next here =>
          subst here
          obtain rfl := Option.some.inj found
          rw [loadedLabel]
          cases before : labels.get? .data word with
          | some earlier => exact named word earlier before
          | none => exact ⟨_, shownAt inside, rfl⟩
      · exact named address label found

theorem Passes.dataNamed (passes : sweep.Passes cursor step behind ended)
    (onCartridge : ∀ address, behind.labels.contains .code address = true →
      address < Bank.windowEnd)
    (named : DataNamed cursor.labels) : DataNamed behind.labels := by
  have announced := announce_dataNamed sweep step.offset named
  rcases passes.refers with ⟨_, _, same⟩ | ⟨_, _, _, refers⟩
  · rwa [same]
  · apply refers.dataNamed _ announced
    intro address present
    obtain ⟨label, found⟩ := LabelMap.contains_iff.mp present
    obtain ⟨later, foundLater, _⟩ := refers.keeps_code found
    exact onCartridge address (LabelMap.contains_of_get? foundLater)

theorem Reaches.lt_windowEnd_of_code (reached : sweep.Reaches steps cursor ended) {address : Nat}
    (present : cursor.labels.contains .code address = true) : address < Bank.windowEnd := by
  rcases (reached.contains_code_iff address).mp present with
    ⟨step, _, rfl⟩ | ⟨step, _, target, _, _, rfl⟩
  · exact Bank.localAddress_lt step.offset
  · exact Bank.localAddress_lt target

theorem Reaches.dataNamed (reached : sweep.Reaches steps cursor ended) :
    DataNamed cursor.labels := by
  induction reached with
  | first =>
      intro address label found
      simp [Sweep.first] at found
  | pass reached turned ih =>
      have through := reached.pass turned
      exact (passes_of_turn turned).dataNamed (fun _ => through.lt_windowEnd_of_code) ih

end Sweep

/-! ## Loads -/

/-- A step loads an address if its operand refers to the data label for it. -/
def Step.Loads (step : Step) (address : Nat) : Prop :=
  ∃ instruction, step.item = .code instruction (some (.label .data address))

/-- A step withdraws an address from the data labels if it jumps there, to before the start. -/
def Step.Withdraws (start : Nat) (step : Step) (address : Nat) : Prop :=
  ∃ target, step.target? = some target ∧ target < start ∧ Bank.localAddress target = address

/-- One of the steps loads an address. -/
def Loaded (steps : List Step) (address : Nat) : Prop :=
  ∃ step ∈ steps, step.Loads address

/-- An address that was loaded before is loaded once more, and no later step withdraws it. -/
def LoadedAgain (start : Nat) (steps : List Step) (address : Nat) : Prop :=
  ∃ earlier again later, steps = earlier ++ again :: later ∧ Loaded earlier address ∧
    again.Loads address ∧ ∀ step ∈ later, ¬step.Withdraws start address

theorem loaded_append_singleton {steps : List Step} {step : Step} {address : Nat} :
    Loaded (steps ++ [step]) address ↔ Loaded steps address ∨ step.Loads address := by
  simp [Loaded, or_and_right, exists_or]

theorem loadedAgain_append_singleton {start : Nat} {steps : List Step} {step : Step}
    {address : Nat} :
    LoadedAgain start (steps ++ [step]) address ↔
      (Loaded steps address ∧ step.Loads address) ∨
        (LoadedAgain start steps address ∧ ¬step.Withdraws start address) := by
  constructor
  · rintro ⟨earlier, again, later, split, loaded, loads, kept⟩
    rcases List.eq_nil_or_concat later with rfl | ⟨later, last, rfl⟩
    · obtain ⟨rfl, rfl⟩ := List.append_singleton_inj.mp split
      exact .inl ⟨loaded, loads⟩
    · rw [List.concat_eq_append, ← List.cons_append, ← List.append_assoc] at split
      obtain ⟨rfl, rfl⟩ := List.append_singleton_inj.mp split
      exact .inr ⟨⟨earlier, again, later, rfl, loaded, loads, fun step passed =>
        kept step (by simp [passed])⟩, kept step (by simp)⟩
  · rintro (⟨loaded, loads⟩ | ⟨⟨earlier, again, later, rfl, loaded, loads, kept⟩, keeps⟩)
    · exact ⟨steps, step, [], rfl, loaded, loads, by simp⟩
    · refine ⟨earlier, again, later ++ [step], by simp, loaded, loads, fun other passed => ?_⟩
      rcases List.mem_append.mp passed with before | here
      · exact kept other before
      · rwa [List.mem_singleton.mp here]

theorem LoadedAgain.loaded {start : Nat} {steps : List Step} {address : Nat}
    (again : LoadedAgain start steps address) : Loaded steps address := by
  obtain ⟨earlier, _, _, rfl, ⟨first, passed, loads⟩, _⟩ := again
  exact ⟨first, by simp [passed], loads⟩

namespace Sweep

variable {sweep : Sweep} {cursor behind : Cursor} {step : Step} {steps : List Step} {ended : Bool}

/-- What an operand does to the data label for an address that no code label explains: a load makes
or counts it, a jump to before the start silences it, and everything else leaves it alone. -/
theorem Refers.get?_data_of_unexplained {labels after : LabelMap} {offset : Nat}
    {instruction : Instruction} {argument : Option Argument}
    (refers : sweep.Refers labels offset instruction argument after) {address : Nat}
    (unexplained : after.contains .code address = false) :
    (argument = some (.label .data address) ∧ after.get? .data address =
        some (loadedLabel labels address (Bank.flatOffset address sweep.bank))) ∨
    (argument ≠ some (.label .data address) ∧
      (∃ target, instruction.target? offset = some target ∧ target < sweep.start ∧
        Bank.localAddress target = address) ∧
      after.get? .data address = (labels.get? .data address).map Label.silenced) ∨
    (argument ≠ some (.label .data address) ∧
      (¬∃ target, instruction.target? offset = some target ∧ target < sweep.start ∧
        Bank.localAddress target = address) ∧
      after.get? .data address = labels.get? .data address) := by
  cases jump : instruction.target? offset with
  | some target =>
      obtain ⟨shown, rfl, jumps⟩ := refers.refersJump jump
      have noLoad : some shown ≠ some (.label .data address) := by
        cases jumps <;> simp
      rw [jumps.get?_data]
      by_cases there : Bank.localAddress target = address
      · subst there
        rcases Nat.lt_or_ge target sweep.start with before | inside
        · exact .inr (.inl ⟨noLoad, ⟨target, rfl, before, rfl⟩, by simp⟩)
        · rw [jumps.contains_target inside] at unexplained
          cases unexplained
      · exact .inr (.inr ⟨noLoad, by simp [there], by simp [there]⟩)
  | none =>
      have missing := LabelMap.contains_eq_false_iff.mp unexplained
      rw [refers.get?_code_of_noJump jump] at missing
      cases refers with
      | plain _ noLabel => exact .inr (.inr ⟨noLabel .data address, by simp, rfl⟩)
      | jump goes =>
          rw [jump] at goes
          cases goes
      | @explained word loads used =>
          have elsewhere : word ≠ address := by
            rintro rfl
            obtain ⟨label, found, _⟩ := LabelMap.isUsed_iff.mp used
            rw [missing] at found
            cases found
          exact .inr (.inr ⟨by simp, by simp, by simp [get?_yieldToCode, elsewhere]⟩)
      | @loads word =>
          rw [get?_referData]
          by_cases there : word = address
          · exact .inl ⟨by rw [there], by simp [there]⟩
          · exact .inr (.inr ⟨by simp [there], by simp, by simp [there]⟩)

theorem Passes.get?_data_of_unexplained (passes : sweep.Passes cursor step behind ended)
    {address : Nat} (unexplained : behind.labels.contains .code address = false) :
    (step.Loads address ∧ behind.labels.get? .data address = some
        (loadedLabel cursor.labels address (Bank.flatOffset address sweep.bank))) ∨
    (¬step.Loads address ∧ step.Withdraws sweep.start address ∧
      behind.labels.get? .data address =
        (cursor.labels.get? .data address).map Label.silenced) ∨
    (¬step.Loads address ∧ ¬step.Withdraws sweep.start address ∧
      behind.labels.get? .data address = cursor.labels.get? .data address) := by
  have elsewhere : Bank.localAddress step.offset ≠ address := by
    rintro rfl
    rw [passes.contains_code_here] at unexplained
    cases unexplained
  have announced := get?_announce_of_ne sweep cursor.labels .data elsewhere
  simp only [Step.Loads, Step.Withdraws]
  simp only [Step.target?_eq_some_iff]
  rcases passes.refers with ⟨_, kind, same⟩ | ⟨_, _, kind, refers⟩
  · exact .inr (.inr ⟨by simp [kind], by simp [kind], by rw [same, announced]⟩)
  · have change := refers.get?_data_of_unexplained unexplained
    simp only [loadedLabel, announced] at change ⊢
    simpa [kind] using change

/-- While no code label explains an address, its data label is there exactly if the address was
loaded, and in use exactly if it was loaded again. -/
theorem Reaches.data_of_unexplained (reached : sweep.Reaches steps cursor ended) {address : Nat}
    (unexplained : cursor.labels.contains .code address = false) :
    (cursor.labels.contains .data address = true ↔ Loaded steps address) ∧
      (cursor.labels.isUsed .data address = true ↔ LoadedAgain sweep.start steps address) := by
  induction reached with
  | first =>
      have never : ¬LoadedAgain sweep.start [] address := by
        intro again
        obtain ⟨_, passed, _⟩ := again.loaded
        cases passed
      simp [Sweep.first, LabelMap.contains, LabelMap.isUsed, Loaded, never]
  | @pass steps before after step ended reached turned ih =>
      have passes := passes_of_turn turned
      have unexplainedBefore : before.labels.contains .code address = false := by
        cases present : before.labels.contains .code address with
        | false => rfl
        | true =>
            rw [passes.contains_code_iff.mpr (.inl present)] at unexplained
            cases unexplained
      obtain ⟨present, used⟩ := ih unexplainedBefore
      rw [loaded_append_singleton, loadedAgain_append_singleton, ← present, ← used]
      simp only [LabelMap.contains, LabelMap.isUsed] at *
      rcases passes.get?_data_of_unexplained unexplained with
        ⟨loads, now⟩ | ⟨noLoad, withdraws, now⟩ | ⟨noLoad, kept, now⟩
      · rw [now]
        rw [loadedLabel]
        cases before.labels.get? .data address <;>
          simp [loads, dataLabel, Label.isUsed, Label.referenced]
      · rw [now]
        cases before.labels.get? .data address <;> simp [noLoad, withdraws]
      · rw [now]
        simp [noLoad, kept]

end Sweep

end Sm83
