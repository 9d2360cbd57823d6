import Mathlib
import Sm83.Proofs.Listing.Alike
import Sm83.Proofs.Sweep.DataStretches
import Sm83.Proofs.Sweep.Locality

/-!
# Bytes that are passed as data

A sweep looks at every byte to see whether control flow ends there, also at those that it passes as
data. Within one bank this makes no difference: data goes on whatever its last byte is, and where a
code label ends it, the definition of this label is still missing, so that the sweep may not end
there either. Other bytes in the place of the data leave everything as it is but the rows that show
them: `disassemble_of_other_data`.
-/

namespace Sm83

/-! ## Items over images with other data -/

/-- Items at an offset are the same, or they are the bytes of two images at an offset that was
passed as data. -/
inductive Item.Reread (steps : List Step) (image image' : ByteArray) (offset : Nat) :
    Item → Item → Prop where
  | code (instruction : Instruction) (argument : Option Argument) :
      Reread steps image image' offset (.code instruction argument) (.code instruction argument)
  | data {value value' : UInt8} (passed : PassedAsData steps offset)
      (read : image[offset]? = some value) (read' : image'[offset]? = some value') :
      Reread steps image image' offset (.data value) (.data value')

/-- The row of a byte of data. -/
def dataRow (layout : Layout) (value : UInt8) : String :=
  layout.indent ++ "db $" ++ Text.hexWide 2 value.toNat

theorem Item.text_data (labels : LabelMap) (layout : Layout) (value : UInt8) :
    (Item.data value).text labels layout = dataRow layout value := by
  apply String.toList_injective
  simp [Item.text, instructionText, dataTemplate, Template.around, Template.fill, Argument.text,
    dataRow]

/-- The rows show the bytes of two images at an offset that was passed as data. -/
def DataRows (steps : List Step) (image image' : ByteArray) (layout : Layout)
    (row row' : String) : Prop :=
  ∃ offset value value', PassedAsData steps offset ∧ image[offset]? = some value ∧
    image'[offset]? = some value' ∧ row = dataRow layout value ∧ row' = dataRow layout value'

theorem Item.Reread.shownAlike (steps : List Step) (image image' : ByteArray) (labels : LabelMap)
    (layout : Layout) :
    ShownAlike (Item.Reread steps image image') (DataRows steps image image' layout) labels
      layout := by
  intro offset item item' reread
  cases reread with
  | code => exact .inl rfl
  | data passed read read' =>
      exact .inr ⟨offset, _, _, passed, read, read', Item.text_data _ _ _, Item.text_data _ _ _⟩

theorem Tiles.not_passedAsData {first behind : Nat} {steps : List Step} {step : Step}
    (tiles : Tiles first steps behind) (passed : step ∈ steps) (code : step.item.isData = false)
    {k : Nat} (inside : k < step.item.size) : ¬PassedAsData steps (step.offset + k) := by
  rintro ⟨other, passed', there, data⟩
  have sameOffset : other.offset = step.offset := by
    rcases tiles.apart passed passed' with le | behind <;> omega
  have distinct : (steps.map Step.offset).Nodup :=
    (List.pairwise_map.mpr tiles.pairwise_lt).imp Nat.ne_of_lt
  have same : other = step := List.inj_on_of_nodup_map distinct passed' passed sameOffset
  rw [same, code] at data
  cases data

namespace Sweep

variable {sweep : Sweep} {image : ByteArray} {cursor after : Cursor} {step : Step}
  {steps : List Step} {ended : Bool}

/-! ## How a sweep goes on behind data -/

theorem Reaches.not_allDefined_of_ahead (reached : sweep.Reaches steps cursor ended)
    (oneBank : Bank.ofOffset cursor.offset = Bank.ofOffset sweep.start)
    (ahead : cursor.labels.contains .code (Bank.localAddress cursor.offset) = true) :
    cursor.labels.allDefined .code = false := by
  rw [Bool.eq_false_iff]
  intro allDefined
  obtain ⟨label, found⟩ := LabelMap.contains_iff.mp ahead
  have defined := LabelMap.allDefined_iff.mp allDefined _ label found
  obtain ⟨step, passed, there⟩ := (reached.defined_code_iff found).mp defined
  have bounds := reached.tiles.bounds passed
  have pos := step.item.size_pos
  have stepBank : Bank.ofOffset step.offset = Bank.ofOffset sweep.start :=
    Bank.ofOffset_eq_of_between oneBank.symm bounds.1 (by omega)
  have here := Bank.eq_of_localAddress_of_ofOffset there (stepBank.trans oneBank.symm)
  omega

/-- Where data goes on, or its end waits for a definition, the byte does not decide how the sweep
goes on. -/
theorem onward_of_data {taken : Cursor}
    (waits : taken.inData = false →
      taken.labels.contains .code (Bank.localAddress taken.offset) = true ∧
        taken.labels.allDefined .code = false) (value value' : UInt8) :
    (sweep.onward (.data value') taken).ends = (sweep.onward (.data value) taken).ends ∧
      (sweep.onward (.data value') taken).carry taken =
        (sweep.onward (.data value) taken).carry taken := by
  cases still : taken.inData with
  | true =>
      have same : sweep.onward (.data value') taken = sweep.onward (.data value) taken := by
        simp only [onward, still, Bool.or_true]
      rw [same]
      exact ⟨rfl, rfl⟩
  | false =>
      obtain ⟨ahead, missing⟩ := waits still
      have noData : sweep.entersData taken = false := by simp [entersData, ahead]
      have noEnd : sweep.mayEnd taken = false := by simp [mayEnd, missing]
      have unchanged : { taken with inData := false } = taken := by rw [← still]
      simp only [onward, noData, noEnd, still, Bool.or_false, Bool.false_eq_true, if_false]
      split
      · exact ⟨rfl, rfl⟩
      · cases Opcode.endsFlow (Item.data value').firstByte <;>
          cases Opcode.endsFlow (Item.data value).firstByte <;>
          simp [Onward.ends, Onward.carry, unchanged]

/-! ## Turns over another image -/

theorem Reaches.passed?_of_data (reached : sweep.Reaches steps cursor false)
    (turned : (sweep.turn cursor).passed? = some (step, after, ended))
    (oneBank : Bank.ofOffset after.offset = Bank.ofOffset sweep.start)
    {value value' : UInt8} (data : step.item = .data value)
    (read' : (sweep.withImage image).byte? step.offset = some value') :
    ((sweep.withImage image).turn cursor).passed? =
      some ({ step with item := .data value' }, after, ended) := by
  have through := reached.pass turned
  obtain ⟨item, taken, taking, rfl, rfl, rfl⟩ := passed?_eq_some_iff.mp turned
  obtain rfl : item = .data value := data
  have inData : cursor.inData = true := (takes_of_take? taking).1.symm
  have waits : taken.inData = false →
      taken.labels.contains .code (Bank.localAddress taken.offset) = true ∧
        taken.labels.allDefined .code = false := by
    intro left
    have ahead : taken.labels.contains .code (Bank.localAddress taken.offset) = true := by
      simpa [inData, left] using take?_inData taking
    have missing := through.not_allDefined_of_ahead oneBank (by simpa using ahead)
    exact ⟨ahead, by simpa using missing⟩
  obtain ⟨ends, carry⟩ := onward_of_data waits value value'
  have turned' : ((sweep.withImage image).turn cursor).passed? =
      some ((sweep.withImage image).stepOf cursor (.data value') taken,
        (sweep.onward (.data value') taken).carry taken,
        (sweep.onward (.data value') taken).ends) := by
    rw [inData] at taking
    obtain ⟨_, _, _, behind⟩ := take?_data_iff.mp taking
    apply passed?_of_take?
    rw [inData]
    exact take?_data_iff.mpr ⟨value', read', rfl, behind⟩
  have sameStep : (sweep.withImage image).stepOf cursor (.data value') taken =
      { sweep.stepOf cursor (.data value) taken with item := .data value' } := by
    simp only [stepOf, inData, Bool.not_true, Bool.and_false]
    rfl
  rw [turned', ends, carry, sameStep]

/-- In the bank of the start, a turn leaves the same cursor over every image that differs only in
data, behind an item that corresponds. -/
theorem Reaches.passed?_alike {all : List Step} {last : Nat}
    (reached : sweep.Reaches steps cursor false)
    (turned : (sweep.turn cursor).passed? = some (step, after, ended))
    (oneBank : Bank.ofOffset after.offset = Bank.ofOffset sweep.start)
    (tiles : Tiles sweep.start all last) (passed : step ∈ all)
    (sameSize : image.size = sweep.image.size)
    (same : ∀ offset, ¬PassedAsData all offset → image[offset]? = sweep.image[offset]?) :
    ∃ step', ((sweep.withImage image).turn cursor).passed? = some (step', after, ended) ∧
      Step.Alike (Item.Reread all sweep.image image) step step' := by
  have passes := passes_of_turn turned
  have sameCeiling : (sweep.withImage image).ceiling = sweep.ceiling := by
    simp only [ceiling, withImage, sameSize]
  have reads := passes.reads
  cases kind : step.item with
  | code instruction argument =>
      have code : step.item.isData = false := by rw [kind]; rfl
      have found : sweep.FindsBytes image step.offset step.item.size := by
        refine findsBytes_of_same ?_ fun k inside => ?_
        · rw [sameCeiling, ← passes.after_offset]
          exact passes.le_ceiling
        · exact same _ (tiles.not_passedAsData passed code inside)
      refine ⟨step, passed?_withImage turned found, rfl, rfl, rfl, ?_⟩
      rw [kind]
      exact .code instruction argument
  | data value =>
      have isData : PassedAsData all step.offset := ⟨step, passed, rfl, by rw [kind]; rfl⟩
      rw [Reads, kind] at reads
      have inside : step.offset < (sweep.withImage image).ceiling := by
        rw [sameCeiling]
        exact lt_ceiling_of_byte? reads
      obtain ⟨value', read'⟩ := Option.isSome_iff_exists.mp (Plain.isSome_byte?_iff.mpr inside)
      refine ⟨_, reached.passed?_of_data turned oneBank kind read', rfl, rfl, rfl, ?_⟩
      rw [kind]
      exact .data isData (getElem?_of_byte? reads) (getElem?_of_byte? read')

end Sweep

/-! ## Listings over another image -/

/-- A listing that stays in the bank of its start is the same over every image of the same size that
differs only in bytes that were passed as data; only the rows of these bytes show the difference. -/
theorem disassemble_of_other_data {image image' : ByteArray} {names : Names} {start : Nat}
    {options : Options} {listing : Listing}
    (ok : disassemble image names start options = .ok listing)
    (oneBank : Bank.ofOffset listing.endOffset = Bank.ofOffset start)
    (sameSize : image'.size = image.size)
    (same : ∀ offset, ¬PassedAsData listing.steps.toList offset →
      image'[offset]? = image[offset]?) :
    ∃ listing', disassemble image' names start options = .ok listing' ∧
      listing'.endOffset = listing.endOffset ∧ listing'.stop = listing.stop ∧
      listing'.labels = listing.labels ∧
      List.Forall₂ (Step.Alike (Item.Reread listing.steps.toList image image'))
        listing.steps.toList listing'.steps.toList ∧
      ∀ layout, Text.SameBut (DataRows listing.steps.toList image image' layout)
        (listing.text layout) (listing'.text layout) := by
  let sweep : Sweep := ⟨image, names, start, options⟩
  obtain ⟨noObjection, sameStart, sameStop, inData, reached⟩ := Sweep.reaches_of_listing ok
  have follows : ∀ earlier before step after ended, sweep.Reaches earlier before false →
      (sweep.turn before).passed? = some (step, after, ended) → step ∈ listing.steps.toList →
        after.offset ≤ listing.endOffset →
          ∃ step', ((sweep.withImage image').turn before).passed? = some (step', after, ended) ∧
            Step.Alike (Item.Reread listing.steps.toList image image') step step' := by
    intro earlier before step after ended reached' turned passed below
    have above : sweep.start ≤ after.offset := (reached'.pass turned).start_le_offset
    have here := Bank.ofOffset_eq_of_between oneBank.symm above below
    exact reached'.passed?_alike turned here reached.tiles passed sameSize same
  obtain ⟨steps', reached', alike⟩ := reached.follow (sweep.withImage image') _ rfl follows
  have inside : start < (sweep.withImage image').ceiling := by
    have below := Sweep.start_lt_of_noObjection noObjection
    simpa only [Sweep.ceiling, Sweep.withImage, sameSize] using below
  have listed := reached'.listing_eq (Sweep.objection?_withImage noObjection inside)
  refine ⟨_, listed, rfl, sameStop.symm, rfl, alike, fun layout => ?_⟩
  exact Listing.text_sameBut sameStart.symm rfl rfl (Item.Reread.shownAlike _ _ _ _ _) alike

/-- The bytes of `loadAndJump` with a return and a jump in the place of its data. -/
def returnAndJumpAsData : ByteArray :=
  ⟨#[0x21, 0x06, 0x00, 0x18, 0x03, 0xc9, 0xc9, 0x18, 0xc9]⟩

/-- Data that reads like the end of control flow is passed like any other. -/
theorem disassemble_of_other_data_of_load_and_jump :
    ∃ listing listing',
      disassemble loadAndJump.image .empty 0 { allowData := true } = .ok listing ∧
      disassemble returnAndJumpAsData .empty 0 { allowData := true } = .ok listing' ∧
      listing.endOffset = 9 ∧ PassedAsData listing.steps.toList 6 ∧
      listing'.endOffset = listing.endOffset ∧ listing'.labels = listing.labels ∧
      ∀ layout, Text.SameBut
        (DataRows listing.steps.toList loadAndJump.image returnAndJumpAsData layout)
        (listing.text layout) (listing'.text layout) := by
  have run : (disassemble loadAndJump.image .empty 0 { allowData := true }).map (fun listing =>
      (listing.steps.toList.map (fun step => (step.offset, step.item.isData)),
        listing.endOffset)) =
      .ok ([(0, false), (3, false), (5, false), (6, true), (7, true), (8, false)], 9) := by
    cbv
  cases ok : disassemble loadAndJump.image .empty 0 { allowData := true } with
  | error error => rw [ok] at run; cases run
  | ok listing =>
      rw [ok] at run
      obtain ⟨offsets, ends⟩ := Prod.mk.inj (Except.ok.inj run)
      have passed (offset : Nat) : PassedAsData listing.steps.toList offset ↔
          offset = 6 ∨ offset = 7 := by
        rw [passedAsData_iff_mem, offsets]
        simp
      have agree : ∀ offset, ¬PassedAsData listing.steps.toList offset →
          returnAndJumpAsData[offset]? = loadAndJump.image[offset]? := by
        intro offset noData
        rw [passed] at noData
        rcases Nat.lt_or_ge offset 9 with inside | outside
        · have table : ∀ offset < 9, ¬(offset = 6 ∨ offset = 7) →
              returnAndJumpAsData[offset]? = loadAndJump.image[offset]? := by
            decide
          exact table offset inside noData
        · rw [getElem?_neg returnAndJumpAsData offset (Nat.not_lt.mpr outside),
            getElem?_neg loadAndJump.image offset (Nat.not_lt.mpr outside)]
      have sameSize : returnAndJumpAsData.size = loadAndJump.image.size := rfl
      obtain ⟨listing', ok', sameEnd, _, labels, _, texts⟩ :=
        disassemble_of_other_data ok (by rw [ends]; decide) sameSize agree
      exact ⟨listing, listing', rfl, ok', ends, (passed 6).mpr (.inl rfl), sameEnd, labels, texts⟩

end Sm83
