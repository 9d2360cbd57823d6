import Mathlib
import Sm83.Proofs.Sweep.StopOrder

/-!
# Hard stops

With a hard stop a sweep goes no more than one instruction past its stop, and a stop that was given
is reached whatever control flow does: `ends_near_hard_stop`. A stop that was not given is only a
limit. Such a sweep may end where control flow does, and then the hard stop has made no difference.
-/

namespace Sm83

theorem OperandKind.size_le (kind : OperandKind) : kind.size ≤ 2 := by
  cases kind <;> decide

theorem Item.size_le (item : Item) : item.size ≤ 3 := by
  cases item with
  | data value => simp [Item.size]
  | code instruction argument =>
      have operand := (Encoding.ofOpcode instruction.opcode).operand.size_le
      simp only [Item.size, Instruction.size, Encoding.size]
      omega

namespace Sweep

variable {sweep : Sweep} {cursor after : Cursor} {step : Step} {steps : List Step} {ended : Bool}

/-! ## In front of the stop -/

theorem Reaches.lt_stop (reached : sweep.Reaches steps cursor false)
    (hard : sweep.options.hardStop = true) (before : sweep.start < sweep.stop) :
    cursor.offset < sweep.stop := by
  cases reached with
  | first => exact before
  | @pass _ _ _ step _ _ turned =>
      obtain ⟨_, taken, _, settles⟩ := taken_of_turn turned
      refine Nat.lt_of_not_le fun passed => ?_
      rw [← settles.offset_eq] at passed
      have stops : sweep.onward step.item taken = .stop :=
        onward_eq_stop_iff.mpr (.inl ⟨hard, passed⟩)
      exact absurd (settles.ended_iff.mpr stops) (by simp)

theorem Reaches.le_stop_add_two (reached : sweep.Reaches steps cursor true)
    (hard : sweep.options.hardStop = true) (before : sweep.start < sweep.stop) :
    cursor.offset ≤ sweep.stop + 2 := by
  cases reached with
  | @pass _ _ _ step _ reached turned =>
      have passes := passes_of_turn turned
      have here := passes.offset_eq
      have behind := passes.after_offset
      have inFront := reached.lt_stop hard before
      have size := step.item.size_le
      omega

theorem Reaches.stop_eq_none (reached : sweep.Reaches steps cursor true)
    (early : cursor.offset < sweep.stop) : sweep.options.stop = none := by
  cases reached with
  | @pass _ _ _ step _ _ turned =>
      obtain ⟨_, taken, _, settles⟩ := taken_of_turn turned
      rw [← settles.offset_eq] at early
      rcases onward_eq_stop_iff.mp (settles.ended_iff.mp rfl) with ⟨_, passed⟩ | ⟨_, _, may⟩
      · exact absurd passed (Nat.not_le.mpr early)
      · rcases (mayEnd_iff.mp may).1 with passed | missing
        · exact absurd passed (Nat.not_le.mpr early)
        · exact missing

/-! ## Without the hard stop -/

/-- The same sweep, ended by control flow only. -/
def soft (sweep : Sweep) : Sweep :=
  sweep.withStop sweep.options.stop false

theorem passed?_soft (turned : (sweep.turn cursor).passed? = some (step, after, ended))
    (early : after.offset < sweep.stop) :
    (sweep.soft.turn cursor).passed? = some (step, after, ended) := by
  obtain ⟨item, taken, taking, rfl, rfl, rfl⟩ := passed?_eq_some_iff.mp turned
  rw [Onward.carry_offset] at early
  have takingSoft : sweep.soft.take? (sweep.soft.announce cursor.labels cursor.offset).1
      cursor.offset cursor.inData = some (item, taken) := taking
  have onward : sweep.soft.onward item taken = sweep.onward item taken := by
    have notPassed : decide (sweep.stop ≤ taken.offset) = false := by
      simpa using early
    simp only [Sweep.onward, notPassed, Bool.and_false]
    rfl
  rw [passed?_of_take? takingSoft, stepOf, stepOf, onward]
  rfl

theorem Reaches.soft (reached : sweep.Reaches steps cursor ended)
    (early : cursor.offset < sweep.stop) : sweep.soft.Reaches steps cursor ended := by
  obtain ⟨steps', reached', same⟩ := reached.follow sweep.soft Eq rfl
    fun _ _ step after _ _ turned _ below =>
      ⟨step, passed?_soft turned (Nat.lt_of_le_of_lt below early), rfl⟩
  rw [List.forall₂_eq_eq_eq] at same
  exact same ▸ reached'

end Sweep

/-! ## Listings with a hard stop -/

/-- A listing with a hard stop ends less than an instruction past the stop, and no earlier than a
stop that was given. Without one the stop is the last offset of the bank, and a listing that ends
earlier is the one that there is without the hard stop. -/
theorem ends_near_hard_stop {image : ByteArray} {names : Names} {start : Nat} {options : Options}
    {listing : Listing} (ok : disassemble image names start options = .ok listing)
    (hard : options.hardStop = true) (before : start < listing.stop) :
    listing.stop = options.stop.getD (Bank.lastOffset start) ∧
    listing.endOffset ≤ listing.stop + 2 ∧
    (∀ stop, options.stop = some stop → listing.stop ≤ listing.endOffset) ∧
    (listing.endOffset < listing.stop →
      disassemble image names start { options with hardStop := false } = .ok listing) := by
  let sweep : Sweep := ⟨image, names, start, options⟩
  obtain ⟨noObjection, atStart, stopEq, inData, reached⟩ : sweep.objection? = none ∧ _ :=
    Sweep.reaches_of_listing ok
  rw [stopEq] at before ⊢
  refine ⟨rfl, reached.le_stop_add_two hard before, fun stop given => ?_, fun early => ?_⟩
  · refine Nat.le_of_not_lt fun early => ?_
    rw [reached.stop_eq_none early] at given
    cases given
  · exact Sweep.listing_eq_ok_iff.mpr ⟨noObjection, atStart, stopEq, inData, reached.soft early⟩

/-- A hard stop inside a jump is passed by the rest of the jump. -/
theorem ends_near_hard_stop_in_jump :
    ∃ listing, disassemble jumpOverReturns .empty 0 { stop := some 1, hardStop := true } =
        .ok listing ∧
      0 < listing.stop ∧ listing.stop ≤ listing.endOffset ∧
      listing.endOffset ≤ listing.stop + 2 := by
  have run : (disassemble jumpOverReturns .empty 0 { stop := some 1, hardStop := true }).map
      Listing.stop = .ok 1 := by
    cbv
  cases ok : disassemble jumpOverReturns .empty 0 { stop := some 1, hardStop := true } with
  | error error => rw [ok] at run; cases run
  | ok listing =>
      rw [ok] at run
      have stopEq : listing.stop = 1 := Except.ok.inj run
      have before : 0 < listing.stop := by rw [stopEq]; exact Nat.one_pos
      obtain ⟨_, near, reached, _⟩ := ends_near_hard_stop ok rfl before
      exact ⟨listing, rfl, before, reached 1 rfl, near⟩

/-! ## A stop that was not given -/

theorem Plain.mayEnd_of_return {image : ByteArray} {start : Nat} {options : Options}
    (noStop : options.stop = none) (inside : start < ceiling image)
    (read : image[start]? = some 0xc9) :
    MayEnd image start options 0 ∧ boundary image start 1 = start + 1 := by
  have size : sizeAt image start = 1 := by
    rw [sizeAt, read]
    decide
  refine ⟨⟨fun i first => ?_, .inr ⟨⟨0xc9, by decide, read⟩, by simp [noStop], ?_⟩⟩, ?_⟩
  · obtain rfl : i = 0 := Nat.le_zero.mp first
    exact ⟨inside, by rw [boundary, size]; exact inside⟩
  · intro i first target jump
    obtain rfl : i = 0 := Nat.le_zero.mp first
    have noJump : (0xc9 : UInt8) ∉ Opcode.relativeJumps := by decide
    rw [boundary, jump?, read] at jump
    cases next : image[start + 1]? with
    | none => simp [next] at jump
    | some operand => simp [next, noJump] at jump
  · rw [boundary, boundary, size]

/-- A bank of zeros but for a return three bytes before its end. -/
def bankWithReturn : ByteArray :=
  ⟨Array.replicate 0x3ffd 0 ++ #[0xc9, 0x00, 0x00]⟩

/-- Without a stop that was given, a sweep with a hard stop ends at a return in front of the last
offset of its bank. -/
theorem ends_before_hard_stop :
    ∃ listing, disassemble bankWithReturn .empty 0x3ffd { hardStop := true } = .ok listing ∧
      listing.stop = Bank.lastOffset 0x3ffd ∧ 0x3ffd < listing.stop ∧
      listing.endOffset < listing.stop := by
  have size : bankWithReturn.size = 0x4000 := by simp [bankWithReturn, ByteArray.size]
  have inside : 0x3ffd < Plain.ceiling bankWithReturn := by
    rw [Plain.ceiling, size]
    decide
  have read : bankWithReturn[0x3ffd]? = some 0xc9 := by
    rw [getElem?_pos bankWithReturn 0x3ffd (by rw [size]; decide)]
    simp [bankWithReturn, ByteArray.getElem_eq_getElem_data]
  let options : Options := { hardStop := true }
  obtain ⟨may, behind⟩ : Plain.MayEnd bankWithReturn 0x3ffd options 0 ∧ _ :=
    Plain.mayEnd_of_return rfl inside read
  have stopInside : ∀ stop, options.stop = some stop → stop ≤ Bank.capacity := by simp [options]
  rcases Plain.disassemble_cases .empty inside rfl stopInside with
    ⟨n, least, listing, ok, ends⟩ | ⟨never, _⟩
  · obtain rfl : n = 0 := Nat.le_zero.mp (least.2 may)
    have stopEq : listing.stop = Bank.lastOffset 0x3ffd := (Sweep.reaches_of_listing ok).2.2.1
    rw [behind] at ends
    exact ⟨listing, ok, stopEq, by rw [stopEq]; decide, by rw [stopEq, ends]; decide⟩
  · exact absurd may (never 0)

end Sm83
