import Mathlib
import Sm83.Proofs.Listing.Items
import Sm83.Proofs.Listing.Routines
import Sm83.Proofs.Names.Constants
import Sm83.Proofs.Names.Positions
import Sm83.Proofs.Sweep.Outcome

/-!
# What a word shown by a name stands for

A word is looked up by its address and the bank of the run, and names are looked up by their text.
Where no name on the cartridge is entered twice the two agree: a name that is shown for a word lies
at the offset of the word, and can be given in its place.
-/

namespace Sm83

namespace Sweep

variable {sweep : Sweep} {steps : List Step} {cursor : Cursor} {step : Step} {ended : Bool}
  {instruction : Instruction} {argument : Option Argument}

/-- A word is shown by its name, and by a name only if it has one. -/
theorem Reaches.argument_eq_name_iff (reached : sweep.Reaches steps cursor ended)
    (passed : step ∈ steps) (code : step.item = .code instruction argument) {word : Nat}
    (operand : instruction.operand = .word word) {name : String} :
    argument = some (.name name) ↔ sweep.wordName? word = some name := by
  obtain ⟨_, labels, referred⟩ := reached.referred passed code
  simp only [refer, operand, referWord] at referred
  rw [← referred]
  cases sweep.wordName? word with
  | some found => simp
  | none =>
      simp only [Option.some.injEq, reduceCtorEq, iff_false]
      split
      · simp
      split
      · simp
      split <;> simp

end Sweep

/-! ## Names that lie where they are found -/

namespace SymbolFile

variable {entries : List Entry} {entry : Entry} {name : String} {word bank : Nat}

theorem lastNamed?_of_nodup
    (distinct : ((entries.filter (Entry.liesIn [.rom])).map Entry.name).Nodup)
    (listed : entry ∈ entries) (onCartridge : entry.liesIn [.rom] = true) :
    lastNamed? entries entry.name = some entry := by
  have isOne : (lastNamed? entries entry.name).isSome = true := by
    rw [lastNamed?, List.find?_isSome]
    exact ⟨entry, List.mem_reverse.mpr listed, by simp [onCartridge]⟩
  obtain ⟨last, found⟩ := Option.isSome_iff_exists.mp isOne
  have named := List.find?_some found
  simp only [Bool.and_eq_true, beq_iff_eq] at named
  have inList : last ∈ entries := List.mem_reverse.mp (List.mem_of_find?_eq_some found)
  have same : last = entry := List.inj_on_of_nodup_map distinct
    (List.mem_filter.mpr ⟨inList, named.1⟩) (List.mem_filter.mpr ⟨listed, onCartridge⟩) named.2
  rw [found, same]

theorem exists_entry_of_nameOfWord? (found : nameOfWord? entries word bank = some name)
    (below : word < 0x8000) :
    ∃ entry ∈ entries, entry.name = name ∧ entry.liesIn [.rom] = true ∧
      Bank.flatOffset entry.address entry.bank = Bank.flatOffset word bank := by
  obtain ⟨entry, first, rfl⟩ := Option.map_eq_some_iff.mp found
  have here := List.find?_some first
  obtain ⟨inBank, rfl⟩ := Prod.mk.inj (eq_of_beq here)
  refine ⟨entry, List.mem_of_find?_eq_some first, rfl, ?_, ?_⟩
  · rw [liesIn_eq (Region.ofAddress?_eq_rom_iff.mpr below)]
    decide
  · rw [inBank]
    unfold Bank.flatOffset Bank.windowStart Bank.windowEnd Bank.size
    split <;> split <;> split <;> omega

end SymbolFile

open SymbolFile (Entry Lists lastNamed? nameOfWord?)

theorem Names.offset?_of_at?_word {entries : List Entry} {word bank : Nat} {name : String}
    (distinct : ((entries.filter (Entry.liesIn [.rom])).map Entry.name).Nodup)
    (below : word < 0x8000) (fits : Bank.flatOffset word bank < UInt32.size)
    (found : (ofEntries entries).at? word (max bank 1) = some name) :
    (∃ entry ∈ entries, entry.name = name) ∧
      (ofEntries entries).offset? name = some (Bank.flatOffset word bank) := by
  rw [at?_ofEntries_word entries below, Option.filter_eq_some_iff] at found
  obtain ⟨entry, listed, rfl, onCartridge, same⟩ :=
    SymbolFile.exists_entry_of_nameOfWord? found.1 below
  refine ⟨⟨entry, listed, rfl⟩, ?_⟩
  rw [← same] at fits
  rw [offset?_ofEntries, SymbolFile.lastNamed?_of_nodup distinct listed onCartridge,
    Option.map_some, Bank.wrappedOffset_eq fits, same]

/-! ## Named words in a listing -/

/-- A word on the cartridge that has a name is shown by it. Where no name on the cartridge is
entered twice, the name lies at the offset of the word in the bank of the run, whatever constants
for memory there are besides; as a position it is read as that offset, if it holds no colon and the
offset lies on a cartridge. -/
theorem shown_name_denotes_word {text : String} {entries : List Entry} {names : Names}
    {files : List (Region × String)} {image : ByteArray} {start : Nat} {options : Options}
    {listing : Listing} (layout : Layout) (accepted : Names.ofSymbols text = .ok names)
    (lists : Lists text entries)
    (distinct : ((entries.filter (Entry.liesIn [.rom])).map Entry.name).Nodup)
    (elsewhere : ∀ file ∈ files, file.1 ≠ .rom)
    (ok : disassemble image (names.withConstants files) start options = .ok listing)
    {step : Step} {instruction : Instruction} {argument : Option Argument}
    (passed : step ∈ listing.steps.toList) (code : step.item = .code instruction argument)
    (takesWord : (Encoding.ofOpcode instruction.opcode).operand = .word) :
    ∃ low high head tail, image[step.offset + 1]? = some low ∧
      image[step.offset + 2]? = some high ∧
      (Encoding.ofOpcode instruction.opcode).template = .around head tail ∧
      let known := names.withConstants files
      let word := Instruction.wordOf low high
      let bank := Bank.ofOffset start
      word < 0x8000 → ∀ name,
        (argument = some (.name name) ↔ known.at? word (max bank 1) = some name) ∧
        (argument = some (.name name) →
          listing.PrintsAt layout step.offset [] (layout.indent ++ head ++ name ++ tail) ∧
          known.offset? name = some (Bank.flatOffset word bank) ∧
          (':' ∉ name.toList → Bank.flatOffset word bank < 0x200000 →
            Position.resolve known name = .ok (Bank.flatOffset word bank))) := by
  obtain rfl : Names.ofEntries entries = names :=
    Except.ok.inj ((Names.ofSymbols_of_lists lists).symm.trans accepted)
  obtain ⟨noObjection, _, _, _, reached⟩ := Sweep.reaches_of_listing ok
  obtain ⟨decoded, _⟩ := reached.referred passed code
  obtain ⟨encoded, low, high, second, third, operand⟩ := Instruction.bytes_of_word decoded takesWord
  obtain ⟨_, _, tail, slot, _⟩ := Instruction.template_of_operand decoded (by simp [operand])
  have same := (Names.ofEntries entries).sameOnCartridge_withConstants elsewhere
  refine ⟨low, high, _, tail, Sweep.getElem?_of_byte? second, Sweep.getElem?_of_byte? third,
    encoded.symm.trans slot, fun below name => ?_⟩
  have named : argument = some (.name name) ↔
      ((Names.ofEntries entries).withConstants files).at? (Instruction.wordOf low high)
        (max (Bank.ofOffset start) 1) = some name :=
    reached.argument_eq_name_iff passed code operand
  refine ⟨named, fun shown => ?_⟩
  have found := named.mp shown
  rw [same.at?_eq below] at found
  have fits := (Sweep.fits32Bits (Sweep.start_lt_of_noObjection noObjection)).words low high
  obtain ⟨⟨entry, listed, rfl⟩, lies⟩ := Names.offset?_of_at?_word distinct below fits found
  rw [← same.offset?_eq] at lies
  refine ⟨?_, lies, fun noColon inside => ?_⟩
  · have printed := listing.printsAt_item layout passed
    rwa [code, shown, Item.text_of_slot _ _ slot, Argument.text] at printed
  · obtain ⟨isWord, notEmpty⟩ := Position.word_of_lists lists listed
    exact Position.resolve_name inside isWord notEmpty noColon lies

/-- Bank zero shows bank one in the window, and a call of a place there has its name. -/
theorem shown_name_denotes_word_in_window :
    ∃ names listing, Names.ofSymbols "01:4000 Foo" = .ok names ∧
      let known := names.withConstants [(.hram, "hFoo EQU $ff80")]
      disassemble (callAndReturn 0x00 0x40) known 0 {} = .ok listing ∧
      listing.PrintsAt {} 0 [] "\tcall Foo" ∧ known.offset? "Foo" = some 0x4000 ∧
      Position.resolve known "Foo" = .ok 0x4000 := by
  let entry : Entry := ⟨1, 0x4000, "Foo"⟩
  have lists : Lists "01:4000 Foo" [entry] := by decide
  have accepted := Names.ofSymbols_of_lists lists
  have elsewhere : ∀ file ∈ [(Region.hram, "hFoo EQU $ff80")], file.1 ≠ .rom := by simp
  obtain ⟨listing, ok, step, passed, atStart, instruction, argument, code, call⟩ :=
    listed_callAndReturn (by decide : Plain.MayEnd (callAndReturn 0x00 0x40) 0 {} 1)
      ((Names.ofEntries [entry]).withConstants [(.hram, "hFoo EQU $ff80")])
  obtain ⟨low, high, head, tail, second, third, template, denotes⟩ :=
    shown_name_denotes_word {} accepted lists (by decide) elsewhere ok passed code
      (by rw [call]; decide)
  rw [atStart] at second third denotes
  cases second
  cases third
  rw [call] at template
  cases template
  have found : ((Names.ofEntries [entry]).withConstants [(.hram, "hFoo EQU $ff80")]).at?
      (Instruction.wordOf 0x00 0x40) (max (Bank.ofOffset 0) 1) = some "Foo" := by
    rw [((Names.ofEntries [entry]).sameOnCartridge_withConstants elsewhere).at?_eq (by decide)]
    exact Names.at?_ofEntries_of_some (by decide) (by decide) (by decide)
  obtain ⟨named, shown⟩ := denotes (by decide) "Foo"
  obtain ⟨printed, lies, resolved⟩ := shown (named.mpr found)
  exact ⟨_, listing, accepted, ok, printed, lies, resolved (by simp) (by decide)⟩

end Sm83
