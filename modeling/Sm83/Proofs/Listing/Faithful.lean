import Mathlib
import Sm83.Proofs.Listing.Readback

/-!
# A listing loses no byte

Two images whose listings have the same text and whose items lie in the same places agree on every
byte that was listed. The rows of the text give the items back, and each of these its bytes.
-/

namespace Sm83

/-! ## Items in the same places -/

/-- The offsets between the items of a listing, from its start to its end. -/
def Listing.boundaries (listing : Listing) : List Nat :=
  listing.steps.toList.map Step.offset ++ [listing.endOffset]

theorem Tiles.head?_boundaries {first behind : Nat} {steps : List Step}
    (tiles : Tiles first steps behind) :
    (steps.map Step.offset ++ [behind]).head? = some first := by
  cases steps with
  | nil => exact congrArg some tiles.symm
  | cons step steps => exact congrArg some tiles.1

theorem Tiles.sizes_eq {first behind behind' : Nat} {steps steps' : List Step}
    (tiles : Tiles first steps behind) (tiles' : Tiles first steps' behind')
    (same : steps.map Step.offset ++ [behind] = steps'.map Step.offset ++ [behind']) :
    steps.map (·.item.size) = steps'.map (·.item.size) := by
  induction steps generalizing first steps' with
  | nil =>
      have lengths := congrArg List.length same
      have empty : steps' = [] := by simpa [eq_comm] using lengths
      rw [empty]
  | cons step steps ih =>
      cases steps' with
      | nil =>
          have lengths := congrArg List.length same
          simp at lengths
      | cons step' steps' =>
          simp only [List.map_cons, List.cons_append, List.cons.injEq] at same ⊢
          obtain ⟨_, rest⟩ := tiles
          obtain ⟨_, rest'⟩ := tiles'
          have sameBehind := rest.head?_boundaries.symm.trans
            ((congrArg List.head? same.2).trans rest'.head?_boundaries)
          have sameSize : step.item.size = step'.item.size := by
            have := Option.some.inj sameBehind
            omega
          exact ⟨sameSize, ih rest (sameSize ▸ rest') same.2⟩

/-! ## Rows of items -/

namespace Sweep

variable {sweep : Sweep} {listing : Listing} {inData : Bool} {layout : Layout}

/-- Whether a row starts with a tab. -/
def isIndented (row : String) : Bool :=
  row.toList.head? == some '\t'

theorem Reaches.filter_isIndented (reached : sweep.Reaches listing.steps.toList
      ⟨listing.endOffset, inData, listing.labels⟩ true)
    (nameless : sweep.names = .empty) (tab : layout.indent = "\t") :
    (Step.rowsOf listing.labels layout false listing.steps.toList).filter isIndented =
      listing.steps.toList.map fun step => step.item.text listing.labels layout := by
  have definition {kind : LabelKind} {address : Nat} {name : String}
      (defined : listing.labels.definition? kind address = some name) :
      isIndented name = false := by
    obtain ⟨origin, _, rfl⟩ := reached.name_of_definition? defined
    cases kind <;> simp [isIndented, LabelKind.nameAt, LabelKind.stem]
  have item {step : Step} (passed : step ∈ listing.steps.toList) :
      isIndented (step.item.text listing.labels layout) = true := by
    obtain ⟨text, row, _⟩ := reached.written nameless layout passed
    rw [row, tab]
    simp [isIndented]
  rw [Step.filter_rowsOf (by decide), List.map_eq_flatMap]
  apply List.flatMap_congr
  intro step passed
  have hidden (kind : LabelKind) :
      (listing.labels.definition? kind (Bank.localAddress step.offset)).toList.filter isIndented =
        [] := by
    apply List.filter_eq_nil_iff.mpr
    intro name shown
    rw [definition (Option.mem_toList.mp shown)]
    decide
  simp [Step.rows, hidden, item passed]

end Sweep

/-! ## The image behind a listing -/

/-- Listings of one start with the same boundaries and the same text have the same texts of
items. -/
theorem Listing.itemTexts_eq {image image' : ByteArray} {start : Nat} {options : Options}
    {listing listing' : Listing} {layout : Layout} (tab : layout.indent = "\t")
    (ok : disassemble image .empty start options = .ok listing)
    (ok' : disassemble image' .empty start options = .ok listing')
    (sameEnd : listing.endOffset = listing'.endOffset)
    (sameText : listing.text layout = listing'.text layout) :
    listing.steps.toList.map (fun step => step.item.text listing.labels layout) =
      listing'.steps.toList.map (fun step => step.item.text listing'.labels layout) := by
  obtain ⟨atStart, inData, reached⟩ := reaches_of_disassemble ok
  obtain ⟨atStart', inData', reached'⟩ := reaches_of_disassemble ok'
  have sameRows : Step.rowsOf listing.labels layout false listing.steps.toList =
      Step.rowsOf listing'.labels layout false listing'.steps.toList := by
    have indent : '\n' ∉ layout.indent.toList := by simp [tab]
    apply Text.unlines_injective (reached.newline_notMem_rowsOf Names.words_empty indent false)
      (reached'.newline_notMem_rowsOf Names.words_empty indent false)
    simpa only [Listing.text_eq_unlines, Listing.rows, Listing.rowsThrough, Listing.trailer,
      Listing.headerRow, atStart, atStart', sameEnd, Text.unlines_cons, String.append_right_inj,
      String.append_left_inj] using sameText
  rw [← reached.filter_isIndented rfl tab, sameRows, reached'.filter_isIndented rfl tab]

/-- Two images whose listings without names have the same boundaries and the same text agree on
every byte from the start to the end. -/
theorem bytes_eq_of_text_eq {image image' : ByteArray} {start : Nat} {options : Options}
    {listing listing' : Listing} {layout : Layout} (notTwo : Bank.ofOffset start ≠ 2)
    (notThree : Bank.ofOffset start ≠ 3) (tab : layout.indent = "\t")
    (ok : disassemble image .empty start options = .ok listing)
    (ok' : disassemble image' .empty start options = .ok listing')
    (sameBoundaries : listing.boundaries = listing'.boundaries)
    (sameText : listing.text layout = listing'.text layout) :
    ∀ offset, start ≤ offset → offset < listing.endOffset →
      ∃ value, image[offset]? = some value ∧ image'[offset]? = some value := by
  intro offset above below
  obtain ⟨_, inData, reached⟩ := reaches_of_disassemble ok
  obtain ⟨_, inData', reached'⟩ := reaches_of_disassemble ok'
  obtain ⟨sameOffsets, sameEnds⟩ := List.append_inj' sameBoundaries rfl
  have sameSizes := reached.tiles.sizes_eq reached'.tiles sameBoundaries
  have sameTexts := Listing.itemTexts_eq tab ok ok' (List.singleton_inj.mp sameEnds) sameText
  obtain ⟨step, passed, first, behind⟩ := reached.tiles.covers above below
  obtain ⟨i, here⟩ := List.getElem?_of_mem passed
  have offsetAt := congrArg (·[i]?) sameOffsets
  have sizeAt := congrArg (·[i]?) sameSizes
  have textAt := congrArg (·[i]?) sameTexts
  simp only [List.getElem?_map, here, Option.map_some] at offsetAt sizeAt textAt
  obtain ⟨step', here', sameOffset⟩ := Option.map_eq_some_iff.mp offsetAt.symm
  simp only [here', Option.map_some, Option.some.injEq] at sizeAt textAt
  have passed' := List.mem_of_getElem? here'
  obtain ⟨text, row, written⟩ := reached.written rfl layout passed
  obtain ⟨text', row', written'⟩ := reached'.written rfl layout passed'
  have same : text = text' := by
    rw [row, row'] at textAt
    exact String.append_right_inj _ |>.mp textAt
  rw [← same, sameOffset] at written'
  obtain ⟨k, rfl⟩ := Nat.exists_eq_add_of_le first
  have inside : k < step.item.size := by omega
  obtain ⟨value, read⟩ := Option.isSome_iff_exists.mp ((reached.reads passed).isSome inside)
  have read' := written.byte?_eq notTwo notThree written' sizeAt inside
  exact ⟨value, Sweep.getElem?_of_byte? read, Sweep.getElem?_of_byte? (read'.symm.trans read)⟩

/-- The listing of a load, a jump, a return and the byte that was loaded tells these bytes, whatever
comes behind them. -/
theorem bytes_eq_of_load_and_jump :
    ∃ listing listing',
      disassemble (ByteArray.mk #[0x21, 0x07, 0x00, 0x20, 0x00, 0x00, 0xc9, 0x5a]) .empty 0
        { allowData := true } = .ok listing ∧
      disassemble (ByteArray.mk #[0x21, 0x07, 0x00, 0x20, 0x00, 0x00, 0xc9, 0x5a, 0xff]) .empty 0
        { allowData := true } = .ok listing' ∧
      listing.boundaries = listing'.boundaries ∧ listing.text {} = listing'.text {} ∧
      ∀ offset < 8, ∃ value,
        (ByteArray.mk #[0x21, 0x07, 0x00, 0x20, 0x00, 0x00, 0xc9, 0x5a])[offset]? = some value ∧
        (ByteArray.mk #[0x21, 0x07, 0x00, 0x20, 0x00, 0x00, 0xc9, 0x5a, 0xff])[offset]? =
          some value := by
  have run : (disassemble (ByteArray.mk #[0x21, 0x07, 0x00, 0x20, 0x00, 0x00, 0xc9, 0x5a]) .empty 0
      { allowData := true }).map (fun listing =>
        (listing.endOffset, listing.boundaries, listing.text {})) =
      .ok (8, [0, 3, 5, 6, 7, 8], "Func_0: ; 0 (0:0)\n\tld hl, .data_7\n\tjr nz, .asm_5\n\n" ++
        ".asm_5\n\tnop\n\tret\n\n.data_7\n\tdb $5a\n; 0x8") := by
    cbv
  have run' : (disassemble (ByteArray.mk #[0x21, 0x07, 0x00, 0x20, 0x00, 0x00, 0xc9, 0x5a, 0xff])
      .empty 0 { allowData := true }).map (fun listing =>
        (listing.endOffset, listing.boundaries, listing.text {})) =
      .ok (8, [0, 3, 5, 6, 7, 8], "Func_0: ; 0 (0:0)\n\tld hl, .data_7\n\tjr nz, .asm_5\n\n" ++
        ".asm_5\n\tnop\n\tret\n\n.data_7\n\tdb $5a\n; 0x8") := by
    cbv
  cases ok : disassemble (ByteArray.mk #[0x21, 0x07, 0x00, 0x20, 0x00, 0x00, 0xc9, 0x5a]) .empty 0
      { allowData := true } with
  | error error => rw [ok] at run; cases run
  | ok listing =>
      cases ok' : disassemble (ByteArray.mk #[0x21, 0x07, 0x00, 0x20, 0x00, 0x00, 0xc9, 0x5a, 0xff])
          .empty 0 { allowData := true } with
      | error error => rw [ok'] at run'; cases run'
      | ok listing' =>
          rw [ok] at run
          rw [ok'] at run'
          obtain ⟨ends, same⟩ := Prod.mk.inj (Except.ok.inj run)
          obtain ⟨_, same'⟩ := Prod.mk.inj (Except.ok.inj run')
          obtain ⟨sameBoundaries, sameText⟩ := Prod.mk.inj (same.trans same'.symm)
          have agree := bytes_eq_of_text_eq (by decide) (by decide) rfl ok ok' sameBoundaries
            sameText
          rw [ends] at agree
          exact ⟨listing, listing', rfl, rfl, sameBoundaries, sameText,
            fun offset below => agree offset (Nat.zero_le offset) below⟩

end Sm83
