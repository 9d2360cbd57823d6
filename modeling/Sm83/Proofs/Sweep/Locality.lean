import Mathlib
import Sm83.Proofs.Sweep.Outcome

/-!
# What a listing depends on

A sweep reads no byte before its start and none behind the items that it passes, and it asks for the
size of the image only to see that these bytes are there. So a listing stays what it is over every
image with the same bytes from its start to its end: `disassemble_eq_of_same_bytes`.
-/

namespace Sm83

namespace Sweep

variable {sweep : Sweep} {image : ByteArray}

/-! ## Items over another image -/

/-- The bytes at an offset that a sweep reads are found over another image too. -/
def FindsBytes (sweep : Sweep) (image : ByteArray) (offset size : Nat) : Prop :=
  ∀ k < size, ∀ value, sweep.byte? (offset + k) = some value →
    (sweep.withImage image).byte? (offset + k) = some value

theorem take?_withImage {labels : LabelMap} {offset : Nat} {inData : Bool} {item : Item}
    {taken : Cursor} (taking : sweep.take? labels offset inData = some (item, taken))
    (found : sweep.FindsBytes image offset item.size) :
    (sweep.withImage image).take? labels offset inData = some (item, taken) := by
  cases inData with
  | true =>
      obtain ⟨value, read, rfl, rfl⟩ := take?_data_iff.mp taking
      exact take?_data_iff.mpr ⟨value, found 0 Nat.one_pos value read, rfl, rfl⟩
  | false =>
      obtain ⟨instruction, decoded, rfl, rfl⟩ := take?_code_iff.mp taking
      exact take?_code_iff.mpr
        ⟨instruction, Instruction.decode?_mono decoded found, rfl, rfl⟩

/-- A turn passes the same step wherever the bytes of its item are found. -/
theorem passed?_withImage {cursor after : Cursor} {step : Step} {ended : Bool}
    (turned : (sweep.turn cursor).passed? = some (step, after, ended))
    (found : sweep.FindsBytes image step.offset step.item.size) :
    ((sweep.withImage image).turn cursor).passed? = some (step, after, ended) := by
  obtain ⟨item, taken, taking, rfl, rfl, rfl⟩ := passed?_eq_some_iff.mp turned
  exact passed?_of_take? (take?_withImage taking found)

theorem findsBytes_of_same {offset size : Nat}
    (below : offset + size ≤ (sweep.withImage image).ceiling)
    (same : ∀ k < size, image[offset + k]? = sweep.image[offset + k]?) :
    sweep.FindsBytes image offset size := by
  intro k inside value read
  have belowCeiling : offset + k < (sweep.withImage image).ceiling := by omega
  have readImage : image[offset + k]? = some value :=
    (same k inside).trans (getElem?_of_byte? read)
  exact Plain.byte?_eq_some_iff.mpr ⟨belowCeiling, readImage⟩

/-! ## Listings over another image -/

theorem objection?_withImage (noObjection : sweep.objection? = none)
    (inside : sweep.start < (sweep.withImage image).ceiling) :
    (sweep.withImage image).objection? = none := by
  rw [objection?_of_inside (start_lt_of_noObjection noObjection)] at noObjection
  exact (objection?_of_inside inside).trans noObjection

end Sweep

/-- A listing is the same over every image that has the bytes from its start to its end, whatever
comes before or behind them and however long the image is. -/
theorem disassemble_eq_of_same_bytes {image image' : ByteArray} {names : Names} {start : Nat}
    {options : Options} {listing : Listing}
    (ok : disassemble image names start options = .ok listing)
    (long : listing.endOffset ≤ image'.size)
    (same : ∀ offset, start ≤ offset → offset < listing.endOffset →
      image'[offset]? = image[offset]?) :
    disassemble image' names start options = .ok listing := by
  let sweep : Sweep := ⟨image, names, start, options⟩
  obtain ⟨noObjection, sameStart, sameStop, inData, reached⟩ := Sweep.reaches_of_listing ok
  have above : start < listing.endOffset := reached.start_lt
  have below : listing.endOffset ≤ (sweep.withImage image').ceiling := by
    have tiling := reached.tiling (Nat.le_of_lt (Sweep.start_lt_of_noObjection noObjection))
    exact Nat.le_min.mpr ⟨long, tiling.below.trans sweep.ceiling_le_capacity⟩
  have follows : ∀ earlier before step after ended, sweep.Reaches earlier before false →
      (sweep.turn before).passed? = some (step, after, ended) → step ∈ listing.steps.toList →
        after.offset ≤ listing.endOffset →
          ∃ step', ((sweep.withImage image').turn before).passed? = some (step', after, ended) ∧
            step = step' := by
    intro earlier before step after ended _ turned passed inside
    have first : start ≤ step.offset := reached.start_le passed
    have behind := (Sweep.passes_of_turn turned).after_offset
    refine ⟨step, Sweep.passed?_withImage turned (Sweep.findsBytes_of_same (by omega) ?_), rfl⟩
    intro k inItem
    exact same _ (by omega) (by omega)
  obtain ⟨steps', reached', alike⟩ := reached.follow (sweep.withImage image') Eq rfl follows
  rw [List.forall₂_eq_eq_eq] at alike
  subst alike
  have accepted := Sweep.objection?_withImage noObjection (Nat.lt_of_lt_of_le above below)
  exact Sweep.listing_eq_ok_iff.mpr ⟨accepted, sameStart, sameStop, inData, reached'⟩

/-- A jump over a return is listed alike with other bytes around it, and at the end of an image as
well as in the middle of one. -/
theorem disassemble_eq_of_jump_over_return :
    ∃ listing, listing.endOffset = 5 ∧
      disassemble (ByteArray.mk #[0x00, 0x20, 0x01, 0xc9, 0xc9]) .empty 1 {} = .ok listing ∧
      disassemble (ByteArray.mk #[0x18, 0x20, 0x01, 0xc9, 0xc9, 0x18, 0x00]) .empty 1 {} =
        .ok listing := by
  have run : (disassemble (ByteArray.mk #[0x00, 0x20, 0x01, 0xc9, 0xc9]) .empty 1 {}).map
      Listing.endOffset = .ok 5 := by
    cbv
  cases ok : disassemble (ByteArray.mk #[0x00, 0x20, 0x01, 0xc9, 0xc9]) .empty 1 {} with
  | error error => rw [ok] at run; cases run
  | ok listing =>
      rw [ok] at run
      have ends : listing.endOffset = 5 := Except.ok.inj run
      have agree : ∀ offset < 5, 1 ≤ offset →
          (ByteArray.mk #[0x18, 0x20, 0x01, 0xc9, 0xc9, 0x18, 0x00])[offset]? =
            (ByteArray.mk #[0x00, 0x20, 0x01, 0xc9, 0xc9])[offset]? := by
        decide
      refine ⟨listing, ends, rfl, disassemble_eq_of_same_bytes ok (by rw [ends]; decide) ?_⟩
      intro offset above below
      exact agree offset (ends ▸ below) above

end Sm83
