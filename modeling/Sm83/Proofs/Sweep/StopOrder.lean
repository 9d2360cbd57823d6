import Mathlib
import Sm83.Proofs.Sweep.Outcome

/-!
# Earlier and later stops

Two sweeps over the same image that differ only in their stops pass the same items for as long as
both go on, and the one with the earlier stop never goes on longer: `disassemble_of_earlier_stop`.
A hard stop counts as earlier than the same stop that waits for control flow to end, and no stop at
all as one at zero.
-/

namespace Sm83

/-- The item that a step passes and where it is. -/
def Step.place (step : Step) : Nat × Item :=
  (step.offset, step.item)

/-- The items of a listing, each with its offset. -/
def Listing.places (listing : Listing) : List (Nat × Item) :=
  listing.steps.toList.map Step.place

namespace Sweep

/-- The same sweep with another stop. -/
def withStop (sweep : Sweep) (stop : Option Nat) (hard : Bool) : Sweep :=
  { sweep with options := { sweep.options with stop := stop, hardStop := hard } }

variable {sweep : Sweep} {stop : Nat} {hard : Bool} {cursor after : Cursor} {step : Step}
  {steps : List Step} {ended : Bool}

/-- One stop is no later than the stop that was given for a sweep, and hard if that one is. -/
structure StopsNoLater (sweep : Sweep) (stop : Nat) (hard : Bool) : Prop where
  given : sweep.options.stop = some sweep.stop
  stop_le : stop ≤ sweep.stop
  hard_of_hard : sweep.options.hardStop = true → hard = true

/-! ## One turn -/

theorem StopsNoLater.stops (noLater : sweep.StopsNoLater stop hard) {item : Item} {taken : Cursor}
    (stops : sweep.onward item taken = .stop) :
    (sweep.withStop (some stop) hard).onward item taken = .stop := by
  have le := noLater.stop_le
  rcases onward_eq_stop_iff.mp stops with ⟨hardStop, passed⟩ | ⟨flow, noData, may⟩
  · exact onward_eq_stop_iff.mpr (.inl ⟨noLater.hard_of_hard hardStop, le.trans passed⟩)
  · obtain ⟨passed | missing, landed⟩ := mayEnd_iff.mp may
    · have mayEarlier : (sweep.withStop (some stop) hard).mayEnd taken = true :=
        mayEnd_iff.mpr ⟨.inl (le.trans passed), landed⟩
      exact onward_eq_stop_iff.mpr (.inr ⟨flow, noData, mayEarlier⟩)
    · rw [noLater.given] at missing
      cases missing

theorem StopsNoLater.passed? (noLater : sweep.StopsNoLater stop hard)
    (turned : (sweep.turn cursor).passed? = some (step, after, ended)) :
    (∃ step' after', ((sweep.withStop (some stop) hard).turn cursor).passed? =
        some (step', after', true) ∧ step'.place = step.place ∧ after'.offset = after.offset) ∨
      (ended = false ∧ ((sweep.withStop (some stop) hard).turn cursor).passed? =
        some (step, after, false)) := by
  obtain ⟨item, taken, taking, rfl, rfl, rfl⟩ := passed?_eq_some_iff.mp turned
  let early := sweep.withStop (some stop) hard
  have takingEarly : early.take? (early.announce cursor.labels cursor.offset).1 cursor.offset
      cursor.inData = some (item, taken) := taking
  have turnedEarly := passed?_of_take? takingEarly
  by_cases stops : early.onward item taken = .stop
  · simp only [stops, Onward.carry, Onward.ends] at turnedEarly
    refine .inl ⟨_, _, turnedEarly, rfl, ?_⟩
    cases sweep.onward item taken <;> rfl
  · have goesOn : sweep.onward item taken ≠ .stop := fun stopsLate =>
      stops (noLater.stops stopsLate)
    have same : early.onward item taken = sweep.onward item taken :=
      (onward_of_not_stop stops).trans (onward_of_not_stop goesOn).symm
    have ends : (sweep.onward item taken).ends = false := by
      cases decision : sweep.onward item taken with
      | stop => exact absurd decision goesOn
      | proceed | pause => rfl
    have sameStep : early.stepOf cursor item taken = sweep.stepOf cursor item taken := by
      rw [stepOf, stepOf, same]
      rfl
    rw [same, sameStep, ends] at turnedEarly
    exact .inr ⟨ends, turnedEarly⟩

/-! ## A whole run -/

/-- While a sweep runs, the one with the earlier stop runs along, or it has come to its end over the
first of the same items. -/
theorem Reaches.withStop (reached : sweep.Reaches steps cursor ended)
    (noLater : sweep.StopsNoLater stop hard) :
    (∃ steps' cursor', (sweep.withStop (some stop) hard).Reaches steps' cursor' true ∧
        cursor'.offset ≤ cursor.offset ∧ steps'.map Step.place <+: steps.map Step.place) ∨
      (ended = false ∧ (sweep.withStop (some stop) hard).Reaches steps cursor false) := by
  induction reached with
  | first => exact .inr ⟨rfl, .first⟩
  | @pass steps before after step ended reached turned ih =>
      have passes := passes_of_turn turned
      have here := passes.offset_eq
      have behind := passes.after_offset
      rcases ih with ⟨steps', cursor', early, le, first⟩ | ⟨_, along⟩
      · refine .inl ⟨steps', cursor', early, by omega, ?_⟩
        rw [List.map_append]
        exact first.trans (List.prefix_append _ _)
      rcases noLater.passed? turned with ⟨step', after', stopped, same, sameOffset⟩ | ⟨goesOn, both⟩
      · refine .inl ⟨steps ++ [step'], after', along.pass stopped, sameOffset.le, ?_⟩
        simp [same]
      · exact .inr ⟨goesOn, along.pass both⟩

/-! ## No stop at all -/

/-- A sweep that is given no stop turns like one that may stop at zero. -/
theorem turn_withStop_none (sweep : Sweep) (cursor : Cursor) :
    (sweep.withStop none false).turn cursor = (sweep.withStop (some 0) false).turn cursor := by
  have onward (item : Item) (taken : Cursor) :
      (sweep.withStop none false).onward item taken =
        (sweep.withStop (some 0) false).onward item taken := by
    simp [Sweep.onward, mayEnd, entersData, Sweep.withStop, Sweep.stop]
  simp only [turn, onward]
  rfl

theorem run_withStop_none (sweep : Sweep) :
    (sweep.withStop none false).run = (sweep.withStop (some 0) false).run :=
  runFrom_eq_of_turn_eq (turn_withStop_none sweep) #[] sweep.first

end Sweep

/-! ## Listings -/

/-- With an earlier stop, or a hard one in place of one that waits, there is a listing wherever
there was one, and it has the first of its items. A sweep that is given no stop comes to the same as
one that may stop at zero. -/
theorem disassemble_of_earlier_stop (image : ByteArray) (names : Names) (start : Nat)
    (allowData : Bool) {stop stop' : Nat} {hard hard' : Bool} (le : stop ≤ stop')
    (inside : stop' ≤ Bank.capacity) (harder : hard = hard' ∨ (hard = true ∧ hard' = false)) :
    (∀ later, disassemble image names start
        { stop := some stop', hardStop := hard', allowData := allowData } = .ok later →
      ∃ earlier, disassemble image names start
          { stop := some stop, hardStop := hard, allowData := allowData } = .ok earlier ∧
        earlier.endOffset ≤ later.endOffset ∧ earlier.places <+: later.places) ∧
    ∀ layout,
      (disassemble image names start
          { stop := none, hardStop := false, allowData := allowData }).map
        (fun listing => (listing.text layout, listing.endOffset, listing.labels)) =
      (disassemble image names start
          { stop := some 0, hardStop := false, allowData := allowData }).map
        (fun listing => (listing.text layout, listing.endOffset, listing.labels)) := by
  let late : Sweep := ⟨image, names, start,
    { stop := some stop', hardStop := hard', allowData := allowData }⟩
  let early := late.withStop (some stop) hard
  refine ⟨fun later ok => ?_, fun layout => ?_⟩
  · obtain ⟨noObjection, _, _, inData, reached⟩ : late.objection? = none ∧ _ :=
      Sweep.reaches_of_listing ok
    have hardOfHard : late.options.hardStop = true → hard = true := by
      rcases harder with same | ⟨isHard, _⟩
      · exact fun isHard => same.trans isHard
      · exact fun _ => isHard
    rcases reached.withStop ⟨rfl, le, hardOfHard⟩ with
      ⟨steps, cursor, reachedEarly, sooner, first⟩ | ⟨goesOn, _⟩
    · have startInside : start < late.ceiling := Sweep.start_lt_of_noObjection noObjection
      have accepted : early.objection? = none := by
        refine Plain.objection?_eq_none startInside ?_
        rintro _ ⟨⟩
        exact le.trans inside
      exact ⟨_, reachedEarly.listing_eq accepted, sooner, first⟩
    · cases goesOn
  · have sameRun := late.run_withStop_none
    have sameObjection : (late.withStop none false).objection? =
        (late.withStop (some 0) false).objection? := by
      simp [Sweep.objection?, Sweep.withStop, Sweep.ceiling]
    have sameListing : (late.withStop none false).listing.map
          (fun listing => (listing.text layout, listing.endOffset, listing.labels)) =
        (late.withStop (some 0) false).listing.map
          (fun listing => (listing.text layout, listing.endOffset, listing.labels)) := by
      simp only [Sweep.listing, sameRun, sameObjection]
      cases (late.withStop (some 0) false).objection? with
      | some error => rfl
      | none => cases (late.withStop (some 0) false).run.finished <;> rfl
    exact sameListing

/-- A jump over a return, a second return, and one more behind it. -/
def jumpOverReturns : ByteArray :=
  ⟨#[0x20, 0x01, 0xc9, 0xc9, 0x00, 0xc9]⟩

/-- A hard stop inside the jump leaves the jump; a stop behind the second return takes in all. -/
theorem disassemble_of_earlier_stop_in_jump :
    ∃ earlier later, disassemble jumpOverReturns .empty 0 { stop := some 5 } = .ok later ∧
      disassemble jumpOverReturns .empty 0 { stop := some 1, hardStop := true } = .ok earlier ∧
      earlier.endOffset = 2 ∧ later.endOffset = 6 ∧ earlier.places <+: later.places := by
  have run : (disassemble jumpOverReturns .empty 0 { stop := some 5 }).map Listing.endOffset =
      .ok 6 := by
    cbv
  have runEarly : (disassemble jumpOverReturns .empty 0 { stop := some 1, hardStop := true }).map
      Listing.endOffset = .ok 2 := by
    cbv
  cases ok : disassemble jumpOverReturns .empty 0 { stop := some 5 } with
  | error error => rw [ok] at run; cases run
  | ok later =>
      rw [ok] at run
      obtain ⟨earlier, okEarly, _, first⟩ :=
        (disassemble_of_earlier_stop jumpOverReturns .empty 0 false (by decide : 1 ≤ 5) (by decide)
          (.inr ⟨rfl, rfl⟩)).1 later ok
      rw [okEarly] at runEarly
      exact ⟨earlier, later, rfl, okEarly, Except.ok.inj runEarly, Except.ok.inj run, first⟩

end Sm83
