import Mathlib.Data.List.Forall2
import Sm83.Proofs.Sweep.Reach

/-!
# Sweeps in step with each other

Two sweeps are compared turn by turn: where every turn of one is answered by a turn of the other
that leaves the same cursor, the second run passes as many steps as the first and ends where it does
(`Reaches.follow`). What a sweep reaches at its end is its listing (`listing_eq_ok_iff`), so that
the runs tell all about the listings.
-/

namespace Sm83

namespace Sweep

variable {sweep sweep' : Sweep} {cursor after : Cursor} {step : Step} {steps : List Step}
  {ended : Bool}

/-! ## What a run reaches is the run -/

theorem Reaches.run_eq (reached : sweep.Reaches steps cursor ended) :
    sweep.run = if ended then ⟨steps.toArray, cursor, true⟩
      else sweep.runFrom steps.toArray cursor := by
  induction reached with
  | first => rfl
  | @pass steps before after step ended reached turned ih =>
      simp only [Bool.false_eq_true, if_false] at ih
      rw [ih, runFrom]
      cases taken : sweep.turn before with
      | short => simp [taken, Turn.passed?] at turned
      | next step' after' =>
          simp only [taken, Turn.passed?, Option.some.injEq, Prod.mk.injEq] at turned
          obtain ⟨rfl, rfl, rfl⟩ := turned
          simp
      | last step' after' =>
          simp only [taken, Turn.passed?, Option.some.injEq, Prod.mk.injEq] at turned
          obtain ⟨rfl, rfl, rfl⟩ := turned
          simp

theorem Reaches.run_eq_of_ended (reached : sweep.Reaches steps cursor true) :
    sweep.run = ⟨steps.toArray, cursor, true⟩ := by
  simpa using reached.run_eq

theorem Reaches.run_eq_of_short (reached : sweep.Reaches steps cursor false)
    (short : (sweep.turn cursor).passed? = none) :
    sweep.run = ⟨steps.toArray, cursor, false⟩ := by
  have run := reached.run_eq
  simp only [Bool.false_eq_true, if_false] at run
  rw [run, runFrom]
  cases taken : sweep.turn cursor with
  | short => rfl
  | next step after | last step after => simp [taken, Turn.passed?] at short

theorem Reaches.listing_eq (reached : sweep.Reaches steps cursor true)
    (noObjection : sweep.objection? = none) :
    sweep.listing =
      .ok ⟨sweep.start, sweep.stop, cursor.offset, steps.toArray, cursor.labels⟩ := by
  have run := reached.run_eq_of_ended
  have finished : sweep.run.finished = true := by rw [run]
  rw [listing_of_finished noObjection finished, run]

/-- A sweep has a listing exactly if nothing speaks against it and its run comes to its end; the
listing tells what the run has reached. -/
theorem listing_eq_ok_iff {listing : Listing} :
    sweep.listing = .ok listing ↔ sweep.objection? = none ∧ listing.start = sweep.start ∧
      listing.stop = sweep.stop ∧ ∃ inData, sweep.Reaches listing.steps.toList
        ⟨listing.endOffset, inData, listing.labels⟩ true := by
  constructor
  · exact reaches_of_listing
  · rintro ⟨noObjection, start, stop, inData, reached⟩
    rw [reached.listing_eq noObjection, ← start, ← stop]

/-! ## Runs in step -/

/-- Where each turn of a run is answered by a turn of another sweep that leaves the same cursor, the
other sweep reaches the same cursor over steps that answer those of the run. -/
theorem Reaches.follow (reached : sweep.Reaches steps cursor ended) (sweep' : Sweep)
    (answers : Step → Step → Prop) (sameStart : sweep'.start = sweep.start)
    (follows : ∀ earlier before step after ended, sweep.Reaches earlier before false →
      (sweep.turn before).passed? = some (step, after, ended) → step ∈ steps →
        after.offset ≤ cursor.offset →
          ∃ step', (sweep'.turn before).passed? = some (step', after, ended) ∧
            answers step step') :
    ∃ steps', sweep'.Reaches steps' cursor ended ∧ List.Forall₂ answers steps steps' := by
  induction reached with
  | first =>
      have sameFirst : sweep.first = sweep'.first := by rw [Sweep.first, Sweep.first, sameStart]
      exact ⟨[], sameFirst ▸ .first, .nil⟩
  | @pass steps before after step ended reached turned ih =>
      have advance := passes_of_turn turned
      have here := advance.offset_eq
      have behind := advance.after_offset
      obtain ⟨earlier', reached', alike⟩ := ih fun earlier before' step' after' ended' reached''
          turned' passed below =>
        follows earlier before' step' after' ended' reached'' turned'
          (List.mem_append_left _ passed) (by omega)
      obtain ⟨step', turned', answer⟩ := follows steps before step after ended reached turned
        (List.mem_append_right _ List.mem_cons_self) (Nat.le_refl _)
      exact ⟨earlier' ++ [step'], reached'.pass turned',
        List.rel_append alike (.cons answer .nil)⟩

theorem runFrom_eq_of_turn_eq (same : ∀ cursor, sweep'.turn cursor = sweep.turn cursor)
    (steps : Array Step) (cursor : Cursor) :
    sweep'.runFrom steps cursor = sweep.runFrom steps cursor := by
  fun_induction runFrom sweep steps cursor with
  | case1 steps cursor turned =>
      rw [← same] at turned
      rw [runFrom]
      split <;> simp_all
  | case2 steps cursor step after turned =>
      rw [← same] at turned
      rw [runFrom]
      split <;> simp_all
  | case3 steps cursor step after turned ih =>
      rw [← same] at turned
      rw [runFrom]
      split <;> simp_all

end Sweep

end Sm83
