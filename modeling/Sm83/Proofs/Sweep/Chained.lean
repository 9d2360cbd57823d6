import Mathlib
import Sm83.Proofs.Sweep.StopOrder

/-!
# Sweeps that go on where another one ended

A sweep that is stopped hard may be taken up again at its end. The instructions of a plain sweep lie
where they do whichever of them it starts with, so the second sweep passes what a longer first one
would have passed: `hard_stops_chain`. The two need not see the same labels, and they may be in
different banks.
-/

namespace Sm83

/-! ## What a step decodes -/

/-- The instruction of an item, unless it is data. -/
def Item.instruction? : Item → Option Instruction
  | code instruction _ => some instruction
  | data _ => none

/-- Where a step is, which instruction it passes and which bytes of the image that takes. -/
def Step.reading (image : ByteArray) (step : Step) : Nat × Option Instruction × ByteArray :=
  (step.offset, step.item.instruction?,
    image.extract step.offset (step.offset + step.item.size))

/-- What the steps of a listing decode, in their order. -/
def Listing.readings (listing : Listing) (image : ByteArray) :
    List (Nat × Option Instruction × ByteArray) :=
  listing.steps.toList.map (Step.reading image)

namespace Plain

/-- What there is to decode at an offset of an image. -/
def readingAt (image : ByteArray) (offset : Nat) : Nat × Option Instruction × ByteArray :=
  (offset, Instruction.decode? (image[·]?) offset,
    image.extract offset (offset + sizeAt image offset))

variable {sweep : Sweep} {steps : List Step} {cursor : Cursor} {ended : Bool}

theorem reading_of_passed (noData : sweep.options.allowData = false)
    (reached : sweep.Reaches steps cursor ended) {step : Step} (passed : step ∈ steps) :
    step.reading sweep.image = readingAt sweep.image step.offset := by
  obtain ⟨instruction, argument, code, decoded⟩ := code_of_passed noData reached passed
  have inImage : Instruction.decode? (sweep.image[·]?) step.offset = some instruction :=
    Instruction.decode?_mono decoded fun _ _ _ => Sweep.getElem?_of_byte?
  have size : step.item.size = sizeAt sweep.image step.offset := by
    rw [code]
    exact size_eq_sizeAt decoded
  rw [Step.reading, readingAt, inImage, size, code]
  rfl

theorem readings_eq (noData : sweep.options.allowData = false)
    (reached : sweep.Reaches steps cursor ended) :
    steps.map (Step.reading sweep.image) = (List.range steps.length).map fun i =>
      readingAt sweep.image (boundary sweep.image sweep.start i) := by
  calc steps.map (Step.reading sweep.image)
      = steps.map (readingAt sweep.image ∘ Step.offset) :=
        List.map_congr_left fun _ passed => reading_of_passed noData reached passed
    _ = (steps.map Step.offset).map (readingAt sweep.image) := (List.map_map).symm
    _ = _ := by
        rw [(offsets_eq_boundaries noData reached).1, List.map_map]
        rfl

variable {image : ByteArray} {names : Names} {start : Nat} {options : Options} {listing : Listing}

/-- A listing without data ends behind the first instruction where it may, and decodes all of them
up to there. -/
theorem readings_of_disassemble (noData : options.allowData = false)
    (ok : disassemble image names start options = .ok listing) :
    ∃ n, IsLeast {n | MayEnd image start options n} n ∧
      listing.endOffset = boundary image start (n + 1) ∧
      listing.readings image = (List.range (n + 1)).map fun i =>
        readingAt image (boundary image start i) := by
  let sweep : Sweep := ⟨image, names, start, options⟩
  have noData : sweep.options.allowData = false := noData
  obtain ⟨_, inData, reached⟩ : _ ∧ ∃ inData, sweep.Reaches listing.steps.toList _ true :=
    reaches_of_disassemble ok
  obtain ⟨n, count, least⟩ : ∃ n, listing.steps.toList.length = n + 1 ∧
      IsLeast {n | MayEnd image start options n} n := by
    simpa using isLeast_mayEnd noData reached
  have ends := (offsets_eq_boundaries noData reached).2
  have readings := readings_eq noData reached
  rw [count] at ends readings
  exact ⟨n, least, ends, readings⟩

theorem disassemble_of_isLeast (names : Names) {n : Nat} (noData : options.allowData = false)
    (stopInside : ∀ stop, options.stop = some stop → stop ≤ Bank.capacity)
    (least : IsLeast {n | MayEnd image start options n} n) :
    ∃ listing, disassemble image names start options = .ok listing ∧
      listing.endOffset = boundary image start (n + 1) ∧
      listing.readings image = (List.range (n + 1)).map fun i =>
        readingAt image (boundary image start i) := by
  have inside : start < ceiling image := (least.1.1 0 (Nat.zero_le n)).1
  rcases disassemble_cases names inside noData stopInside with ⟨_, _, listing, ok, _⟩ | ⟨never, _⟩
  · obtain ⟨n', least', ends, readings⟩ := readings_of_disassemble noData ok
    obtain rfl := least.unique least'
    exact ⟨listing, ok, ends, readings⟩
  · exact absurd least.1 (never n)

theorem disassemble_of_never (names : Names) {i : Nat} (inside : start < ceiling image)
    (noData : options.allowData = false)
    (stopInside : ∀ stop, options.stop = some stop → stop ≤ Bank.capacity)
    (never : ∀ n, ¬MayEnd image start options n)
    (unfit : IsLeast {i | ¬Fits image (boundary image start i)} i) :
    disassemble image names start options = .error (.unterminated (boundary image start i)
      (Bank.ofOffset (boundary image start i))) := by
  rcases disassemble_cases names inside noData stopInside with
    ⟨n, least, _⟩ | ⟨_, i', unfit', failed⟩
  · exact absurd least.1 (never n)
  · rwa [unfit.unique unfit']

/-! ## A plain sweep taken up again -/

theorem boundary_add (image : ByteArray) (start i j : Nat) :
    boundary image start (i + j) = boundary image (boundary image start i) j := by
  induction j with
  | zero => rfl
  | succ j ih => rw [← Nat.add_assoc, boundary, ih, boundary]

theorem boundary_mono (image : ByteArray) (start : Nat) : Monotone (boundary image start) :=
  monotone_nat_of_le_succ fun _ => Nat.le_add_right _ _

theorem mayEnd_iff_of_hard {stop n : Nat} (hard : options.hardStop = true)
    (given : options.stop = some stop) :
    MayEnd image start options n ↔
      (∀ i ≤ n, Fits image (boundary image start i)) ∧ stop ≤ boundary image start (n + 1) := by
  rw [MayEnd, given]
  constructor
  · rintro ⟨fits, ⟨_, passed⟩ | ⟨_, passed, _⟩⟩
    · exact ⟨fits, passed⟩
    · exact ⟨fits, passed stop rfl⟩
  · rintro ⟨fits, passed⟩
    exact ⟨fits, .inl ⟨hard, passed⟩⟩

/-- What holds of no number below `k` holds first at `k + j` if it first holds `j` behind `k`. -/
theorem isLeast_add {p : Nat → Prop} {k j : Nat} (before : ∀ n < k, ¬p n)
    (least : IsLeast {j | p (k + j)} j) : IsLeast {n | p n} (k + j) := by
  refine ⟨least.1, fun n holds => ?_⟩
  obtain ⟨i, rfl⟩ : ∃ i, n = k + i :=
    Nat.exists_eq_add_of_le (Nat.le_of_not_lt fun below => before n below holds)
  exact Nat.add_le_add_left (least.2 holds) k

section

variable {stop count : Nat} (fits : ∀ i < count, Fits image (boundary image start i))
include fits

theorem fits_add_iff {j : Nat} :
    (∀ i ≤ count + j, Fits image (boundary image start i)) ↔
      ∀ i ≤ j, Fits image (boundary image (boundary image start count) i) := by
  simp only [← boundary_add]
  constructor
  · intro all i le
    exact all (count + i) (Nat.add_le_add_left le count)
  · intro rest i le
    by_cases first : i < count
    · exact fits i first
    · have behind := rest (i - count) (by omega)
      rwa [Nat.add_sub_cancel' (Nat.le_of_not_lt first)] at behind

/-- In front of its hard stop a sweep may end exactly where one that starts there may end. -/
theorem mayEnd_add_iff {j : Nat} (hard : options.hardStop = true)
    (given : options.stop = some stop) :
    MayEnd image start options (count + j) ↔
      MayEnd image (boundary image start count) options j := by
  rw [mayEnd_iff_of_hard hard given, mayEnd_iff_of_hard hard given, fits_add_iff fits,
    Nat.add_assoc, boundary_add]

omit fits in
theorem not_mayEnd_of_lt (hard : options.hardStop = true) (given : options.stop = some stop)
    (early : boundary image start count < stop) {n : Nat} (first : n < count) :
    ¬MayEnd image start options n := by
  rw [mayEnd_iff_of_hard hard given]
  rintro ⟨_, passed⟩
  have inFront := boundary_mono image start (show n + 1 ≤ count from first)
  omega

theorem isLeast_unfit_add {j : Nat}
    (least : IsLeast {j | ¬Fits image (boundary image (boundary image start count) j)} j) :
    IsLeast {i | ¬Fits image (boundary image start i)} (count + j) := by
  apply isLeast_add fun i before => not_not_intro (fits i before)
  simpa only [boundary_add] using least

theorem isLeast_mayEnd_add (hard : options.hardStop = true) (given : options.stop = some stop)
    (early : boundary image start count < stop) {j : Nat}
    (least : IsLeast {j | MayEnd image (boundary image start count) options j} j) :
    IsLeast {n | MayEnd image start options n} (count + j) := by
  apply isLeast_add fun n => not_mayEnd_of_lt hard given early
  simpa only [mayEnd_add_iff fits hard given] using least

theorem not_mayEnd_add (hard : options.hardStop = true) (given : options.stop = some stop)
    (early : boundary image start count < stop)
    (never : ∀ j, ¬MayEnd image (boundary image start count) options j) (n : Nat) :
    ¬MayEnd image start options n := by
  by_cases before : n < count
  · exact not_mayEnd_of_lt hard given early before
  · rw [← Nat.add_sub_cancel' (Nat.le_of_not_lt before), mayEnd_add_iff fits hard given]
    exact never _

end

end Plain

/-! ## Listings in a chain -/

/-- Where a listing with a hard stop ends in front of a later one, the listing up to the later stop
is taken up by the one that starts there. Both end at one offset, and the first of them decodes what
is decoded up to the break and behind it; or both fail at one offset. At the end of the image there
is nothing to take up, and the first of them fails there. -/
theorem hard_stops_chain {image : ByteArray} {names : Names} {start stop stop' : Nat}
    {first : Listing} (inside : stop' ≤ Bank.capacity)
    (ok : disassemble image names start { stop := some stop, hardStop := true } = .ok first)
    (early : first.endOffset < stop') :
    let between := first.endOffset
    let ceiling := min image.size Bank.capacity
    let whole := disassemble image names start { stop := some stop', hardStop := true }
    let rest := disassemble image names between { stop := some stop', hardStop := true }
    (between < ceiling →
      (∃ listing listing', whole = .ok listing ∧ rest = .ok listing' ∧
        listing.endOffset = listing'.endOffset ∧
        listing.readings image = first.readings image ++ listing'.readings image) ∨
      ∃ offset, whole = .error (.unterminated offset (Bank.ofOffset offset)) ∧
        rest = .error (.unterminated offset (Bank.ofOffset offset))) ∧
    (ceiling ≤ between →
      whole = .error (.unterminated between (Bank.ofOffset between)) ∧
        rest = .error (.outOfRange between ceiling)) := by
  intro between ceiling whole rest
  let options : Options := { stop := some stop', hardStop := true }
  have noData : options.allowData = false := rfl
  have stopInside : ∀ given, options.stop = some given → given ≤ Bank.capacity := by
    rintro _ ⟨⟩
    exact inside
  obtain ⟨last, ⟨⟨fits, _⟩, _⟩, ends, readings⟩ := Plain.readings_of_disassemble rfl ok
  obtain ⟨count, behind⟩ : ∃ count, count = last + 1 := ⟨_, rfl⟩
  rw [← behind] at ends readings
  have passed : ∀ i < count, Plain.Fits image (Plain.boundary image start i) :=
    fun i before => fits i (by omega)
  have startInside : start < Plain.ceiling image := (passed 0 (by omega)).1
  have onward : Plain.boundary image start count < stop' := ends ▸ early
  have behindFirst : between = Plain.boundary image start count := ends
  constructor
  · intro below
    rcases Plain.disassemble_cases names below noData stopInside with
      ⟨j, least, _⟩ | ⟨noEnd, j, unfit, failed⟩
    · obtain ⟨listing', ok', ends', readings'⟩ :=
        Plain.disassemble_of_isLeast names noData stopInside least
      obtain ⟨listing, okWhole, endsWhole, readingsWhole⟩ :=
        Plain.disassemble_of_isLeast names noData stopInside
          (Plain.isLeast_mayEnd_add passed rfl rfl onward (behindFirst ▸ least))
      refine .inl ⟨listing, listing', okWhole, ok', ?_, ?_⟩
      · rw [endsWhole, ends', Nat.add_assoc, Plain.boundary_add, ← ends]
      · rw [readingsWhole, readings, readings', Nat.add_assoc, List.range_add, List.map_append,
          List.map_map]
        simp only [Function.comp_def, Plain.boundary_add, ← ends]
        rfl
    · have failedWhole := Plain.disassemble_of_never names startInside noData stopInside
        (Plain.not_mayEnd_add passed rfl rfl onward (behindFirst ▸ noEnd))
        (Plain.isLeast_unfit_add passed (behindFirst ▸ unfit))
      rw [Plain.boundary_add, ← ends] at failedWhole
      exact .inr ⟨_, failedWhole, failed⟩
  · intro atEnd
    have unfit : ¬Plain.Fits image (Plain.boundary image start count) :=
      fun fits => Nat.not_lt.mpr atEnd (behindFirst ▸ fits.1)
    have failedWhole := Plain.disassemble_of_never names startInside noData stopInside
      (Plain.not_mayEnd_add passed rfl rfl onward
        fun j may => unfit (may.1 0 (Nat.zero_le j)))
      (Plain.isLeast_unfit_add passed ⟨unfit, fun j _ => Nat.zero_le j⟩)
    rw [Nat.add_zero, ← ends] at failedWhole
    have refused : (Sweep.mk image names between options).ceiling ≤
        (Sweep.mk image names between options).start := atEnd
    exact ⟨failedWhole, Sweep.listing_of_objection (Sweep.objection?_of_start refused)⟩

/-- A jump over the end of one listing into the next one is decoded as in the listing of both. -/
theorem hard_stops_chain_in_jump :
    ∃ first listing listing',
      disassemble jumpOverReturns .empty 0 { stop := some 1, hardStop := true } = .ok first ∧
      first.endOffset = 2 ∧ 2 < 5 ∧ 5 ≤ Bank.capacity ∧
      disassemble jumpOverReturns .empty 0 { stop := some 5, hardStop := true } = .ok listing ∧
      disassemble jumpOverReturns .empty 2 { stop := some 5, hardStop := true } = .ok listing' ∧
      listing.endOffset = 5 ∧ listing'.endOffset = 5 ∧
      listing.readings jumpOverReturns =
        first.readings jumpOverReturns ++ listing'.readings jumpOverReturns := by
  have run : (disassemble jumpOverReturns .empty 0 { stop := some 1, hardStop := true }).map
      Listing.endOffset = .ok 2 := by
    cbv
  have runWhole : (disassemble jumpOverReturns .empty 0 { stop := some 5, hardStop := true }).map
      Listing.endOffset = .ok 5 := by
    cbv
  cases ok : disassemble jumpOverReturns .empty 0 { stop := some 1, hardStop := true } with
  | error error => rw [ok] at run; cases run
  | ok first =>
      rw [ok] at run
      have ends : first.endOffset = 2 := Except.ok.inj run
      have inside : 5 ≤ Bank.capacity := by decide
      obtain ⟨taken, _⟩ := hard_stops_chain inside ok (by rw [ends]; decide)
      rw [ends] at taken
      rcases taken (by decide) with ⟨listing, listing', okWhole, ok', same, parts⟩ | ⟨_, failed, _⟩
      · rw [okWhole] at runWhole
        have endsWhole : listing.endOffset = 5 := Except.ok.inj runWhole
        exact ⟨first, listing, listing', rfl, ends, by decide, by decide, okWhole, ok', endsWhole,
          same.symm.trans endsWhole, parts⟩
      · rw [failed] at runWhole
        cases runWhole

end Sm83
