import Mathlib
import Sm83.Proofs.Listing.Jumps
import Sm83.Proofs.Names.Entries
import Sm83.Proofs.Sweep.Plain

/-!
# What calls and jumps to a word show

A call or a jump to a word on the cartridge shows the name of the word, looked up by the word and
the bank of the run, and the routine at its offset if there is none. An entry that stands under the
bank that the processor sees its address in is found whenever its offset is called; any other entry
is found by its name alone.
-/

namespace Sm83

/-! ## The text of a call -/

/-- Calls and jumps to a word, with or without a condition. -/
def Opcode.goesToWord (opcode : UInt8) : Bool :=
  isCall opcode || isJump opcode

theorem Encoding.word_of_goesToWord {opcode : UInt8} (goes : Opcode.goesToWord opcode = true) :
    (ofOpcode opcode).operand = .word ∧
      (ofOpcode opcode).template = .around (ofOpcode opcode).template.head "" := by
  have table : ∀ opcode, Opcode.goesToWord opcode = true →
      (ofOpcode opcode).operand = .word ∧
        (ofOpcode opcode).template = .around (ofOpcode opcode).template.head "" := by
    decide +kernel
  exact table opcode goes

theorem Instruction.bytes_of_goesToWord {byte? : Nat → Option UInt8} {offset : Nat}
    {instruction : Instruction} (decoded : decode? byte? offset = some instruction)
    (goes : Opcode.goesToWord instruction.opcode = true) :
    instruction.template = .around (Encoding.ofOpcode instruction.opcode).template.head "" ∧
      ∃ low high, byte? (offset + 1) = some low ∧ byte? (offset + 2) = some high ∧
        instruction.operand = .word (wordOf low high) := by
  obtain ⟨takesWord, template⟩ := Encoding.word_of_goesToWord goes
  obtain ⟨encoded, bytes⟩ := bytes_of_word decoded takesWord
  exact ⟨encoded.trans template, bytes⟩

namespace Sweep

variable {sweep : Sweep} {steps : List Step} {cursor : Cursor} {step : Step} {ended : Bool}
  {instruction : Instruction} {argument : Option Argument}

theorem Reaches.argument_of_goesToWord (reached : sweep.Reaches steps cursor ended)
    (passed : step ∈ steps) (code : step.item = .code instruction argument)
    (goes : Opcode.goesToWord instruction.opcode = true) {word : Nat}
    (operand : instruction.operand = .word word) :
    argument = some ((sweep.wordName? word).elim (.routine (Bank.flatOffset word sweep.bank))
      .name) := by
  obtain ⟨_, labels, referred⟩ := reached.referred passed code
  simp only [refer, operand, referWord] at referred
  rw [← referred]
  cases sweep.wordName? word with
  | some name => rfl
  | none =>
      rw [Opcode.goesToWord] at goes
      simp [goes]

end Sweep

/-! ## The name of a place -/

namespace SymbolFile

/-- The first name at the place that a word on the cartridge is looked up at while a bank is mapped:
in bank zero below the window, and in the window with bank one for bank zero. -/
def nameOfWord? (entries : List Entry) (word bank : Nat) : Option String :=
  firstName? entries (if word < 0x4000 then 0 else max bank 1) word

/-- The place that a word is looked up at has no name, or just the placeholder at address zero. -/
def IsNameless (entries : List Entry) (word bank : Nat) : Prop :=
  nameOfWord? entries word bank = none ∨ word = 0 ∧ nameOfWord? entries word bank = some "NULL"

/-- An entry on the cartridge stands under a bank that its address is seen in: bank zero below the
window, and in it any other bank that 32 bits reach. -/
def Entry.IsAtHome (entry : Entry) : Prop :=
  (entry.address < 0x4000 → entry.bank = 0) ∧
    (0x4000 ≤ entry.address → 1 ≤ entry.bank ∧ entry.bank ≤ 0x3ffff)

instance (entries : List Entry) (word bank : Nat) : Decidable (IsNameless entries word bank) :=
  inferInstanceAs (Decidable (_ ∨ _))

instance (entry : Entry) : Decidable entry.IsAtHome :=
  inferInstanceAs (Decidable (_ ∧ _))

theorem firstName?_isSome {entries : List Entry} {entry : Entry} (listed : entry ∈ entries) :
    (firstName? entries entry.bank entry.address).isSome = true := by
  rw [firstName?, Option.isSome_map, List.find?_isSome]
  exact ⟨entry, listed, beq_self_eq_true _⟩

/-- An entry at home stands where a word is looked up that stands for the same offset. -/
theorem place_of_isAtHome {entry : Entry} {word bank : Nat} (home : entry.IsAtHome)
    (onCartridge : entry.address < 0x8000) (below : word < 0x8000)
    (same : Bank.wrappedOffset entry.address entry.bank = Bank.flatOffset word bank) :
    entry.address = word ∧ entry.bank = if word < 0x4000 then 0 else max bank 1 := by
  rw [Bank.wrappedOffset_eq (Bank.flatOffset_lt (by omega) fun inWindow _ => (home.2 inWindow).2)]
    at same
  have address : entry.address = word := by
    rw [← Bank.localAddress_flatOffset onCartridge, same, Bank.localAddress_flatOffset below]
  obtain ⟨low, window⟩ := home
  refine ⟨address, ?_⟩
  split
  · exact low (by omega)
  · obtain ⟨positive, _⟩ := window (by omega)
    unfold Bank.flatOffset Bank.windowStart Bank.windowEnd Bank.size at same
    split at same <;> split at same <;> omega

theorem nameOfWord?_isSome {entries : List Entry} {entry : Entry} {name : String} {word bank : Nat}
    (last : lastNamed? entries name = some entry) (home : entry.IsAtHome) (below : word < 0x8000)
    (same : Bank.wrappedOffset entry.address entry.bank = Bank.flatOffset word bank) :
    (nameOfWord? entries word bank).isSome = true := by
  have listed : entry ∈ entries := List.mem_reverse.mp (List.mem_of_find?_eq_some last)
  have onCartridge : entry.address < 0x8000 := by
    have isRom := List.find?_some last
    simp only [Bool.and_eq_true, Entry.liesIn, Option.any_eq_true, List.mem_singleton,
      decide_eq_true_eq] at isRom
    obtain ⟨⟨region, inside, rfl⟩, _⟩ := isRom
    exact Region.ofAddress?_eq_rom_iff.mp inside
  obtain ⟨rfl, place⟩ := place_of_isAtHome home onCartridge below same
  rw [nameOfWord?, ← place]
  exact firstName?_isSome listed

end SymbolFile

open SymbolFile (Lists lastNamed? nameOfWord? IsNameless)

theorem Names.at?_ofEntries_word {word : Nat} (entries : List SymbolFile.Entry)
    (below : word < 0x8000) (bank : Nat) : (ofEntries entries).at? word (max bank 1) =
      (nameOfWord? entries word bank).filter fun name => !(word == 0 && name == "NULL") := by
  rw [at?, entered?_rom below]
  rfl

/-! ## Calls and jumps in a listing -/

/-- A call or a jump to a word shows the name of the word, or the routine at its offset. -/
theorem printsAt_goesToWord {image : ByteArray} {names : Names} {start : Nat} {options : Options}
    {listing : Listing} (layout : Layout)
    (ok : disassemble image names start options = .ok listing) {step : Step}
    {instruction : Instruction} {argument : Option Argument}
    (passed : step ∈ listing.steps.toList) (code : step.item = .code instruction argument)
    (goes : Opcode.goesToWord instruction.opcode = true) :
    ∃ low high, image[step.offset + 1]? = some low ∧ image[step.offset + 2]? = some high ∧
      let word := Instruction.wordOf low high
      let shown : Argument := (names.at? word (max (Bank.ofOffset start) 1)).elim
        (.routine (Bank.flatOffset word (Bank.ofOffset start))) .name
      argument = some shown ∧ listing.PrintsAt layout step.offset []
        (layout.jumpRow instruction.opcode (shown.text listing.labels)) := by
  obtain ⟨_, _, reached⟩ := reaches_of_disassemble ok
  obtain ⟨decoded, _⟩ := reached.referred passed code
  obtain ⟨template, low, high, second, third, operand⟩ :=
    Instruction.bytes_of_goesToWord decoded goes
  have refers := reached.argument_of_goesToWord passed code goes operand
  have printed := listing.printsAt_item layout passed
  rw [code, refers, Item.text_of_template _ _ template] at printed
  exact ⟨low, high, Sweep.getElem?_of_byte? second, Sweep.getElem?_of_byte? third, refers, printed⟩

theorem Names.at?_ofEntries_of_some {entries : List SymbolFile.Entry} {word bank : Nat}
    {name : String} (below : word < 0x8000) (found : nameOfWord? entries word bank = some name)
    (noPlaceholder : ¬(word = 0 ∧ name = "NULL")) :
    (ofEntries entries).at? word (max bank 1) = some name := by
  rw [at?_ofEntries_word entries below, found, Option.filter_some]
  simpa using noPlaceholder

theorem Names.at?_ofEntries_of_isNameless {entries : List SymbolFile.Entry} {word bank : Nat}
    (below : word < 0x8000) (nameless : IsNameless entries word bank) :
    (ofEntries entries).at? word (max bank 1) = none := by
  rw [at?_ofEntries_word entries below]
  rcases nameless with missing | ⟨rfl, placeholder⟩
  · rw [missing]
    rfl
  · rw [placeholder]
    rfl

/-- A call or a jump to a word on the cartridge shows a name wherever an entry at home has the
offset of the word: the first name at the place that the word is looked up at. It shows this name in
any case, and where that place has no name but the placeholder at address zero, it shows the routine
at the offset. -/
theorem shows_known_names {text : String} {entries : List SymbolFile.Entry} {names : Names}
    {image : ByteArray} {start : Nat} {options : Options} {listing : Listing} (layout : Layout)
    (accepted : Names.ofSymbols text = .ok names) (lists : Lists text entries)
    (ok : disassemble image names start options = .ok listing) {step : Step}
    {instruction : Instruction} {argument : Option Argument}
    (passed : step ∈ listing.steps.toList) (code : step.item = .code instruction argument)
    (goes : Opcode.goesToWord instruction.opcode = true) :
    ∃ low high, image[step.offset + 1]? = some low ∧ image[step.offset + 2]? = some high ∧
      let word := Instruction.wordOf low high
      let bank := Bank.ofOffset start
      let shows (operand : String) : Prop :=
        listing.PrintsAt layout step.offset [] (layout.jumpRow instruction.opcode operand)
      word < 0x8000 →
        (∀ name entry, names.offset? name = some (Bank.flatOffset word bank) →
          lastNamed? entries name = some entry → entry.IsAtHome →
          ¬(word = 0 ∧ nameOfWord? entries word bank = some "NULL") →
          ∃ first, nameOfWord? entries word bank = some first ∧ argument = some (.name first) ∧
            shows first) ∧
        (∀ first, nameOfWord? entries word bank = some first → ¬(word = 0 ∧ first = "NULL") →
          argument = some (.name first) ∧ shows first) ∧
        (IsNameless entries word bank →
          argument = some (.routine (Bank.flatOffset word bank)) ∧
            shows ("Func_" ++ Text.hex (Bank.flatOffset word bank))) := by
  obtain rfl : Names.ofEntries entries = names :=
    Except.ok.inj ((Names.ofSymbols_of_lists lists).symm.trans accepted)
  obtain ⟨low, high, second, third, refers, printed⟩ :=
    printsAt_goesToWord layout ok passed code goes
  have named (below : Instruction.wordOf low high < 0x8000) (first : String)
      (found : nameOfWord? entries (Instruction.wordOf low high) (Bank.ofOffset start) = some first)
      (noPlaceholder : ¬(Instruction.wordOf low high = 0 ∧ first = "NULL")) :
      argument = some (.name first) ∧ listing.PrintsAt layout step.offset []
        (layout.jumpRow instruction.opcode first) := by
    rw [Names.at?_ofEntries_of_some below found noPlaceholder] at refers printed
    exact ⟨refers, printed⟩
  refine ⟨low, high, second, third, fun below => ⟨?_, named below, ?_⟩⟩
  · intro name entry offset last home noPlaceholder
    have same : Bank.wrappedOffset entry.address entry.bank =
        Bank.flatOffset (Instruction.wordOf low high) (Bank.ofOffset start) := by
      rw [Names.offset?_ofEntries, last] at offset
      exact Option.some.inj offset
    obtain ⟨first, found⟩ :=
      Option.isSome_iff_exists.mp (SymbolFile.nameOfWord?_isSome last home below same)
    exact ⟨first, found, named below first found fun ⟨zero, null⟩ =>
      noPlaceholder ⟨zero, null ▸ found⟩⟩
  · intro nameless
    rw [Names.at?_ofEntries_of_isNameless below nameless] at refers printed
    exact ⟨refers, printed⟩

/-! ## A call of a known offset -/

/-- A call and a return. -/
def callAndReturn (low high : UInt8) : ByteArray :=
  ⟨#[0xcd, low, high, 0xc9]⟩

theorem listed_callAndReturn {low high : UInt8}
    (may : Plain.MayEnd (callAndReturn low high) 0 {} 1) (names : Names) :
    ∃ listing, disassemble (callAndReturn low high) names 0 {} = .ok listing ∧
      ∃ step ∈ listing.steps.toList, step.offset = 0 ∧
        ∃ instruction argument, step.item = .code instruction argument ∧
          instruction.opcode = 0xcd := by
  have least := Nat.isLeast_find (⟨1, may⟩ : ∃ n, Plain.MayEnd (callAndReturn low high) 0 {} n)
  obtain ⟨listing, ok, passes⟩ := Plain.listed_of_isLeast names rfl (by simp) least
  obtain ⟨step, passed, atStart, instruction, argument, code, read⟩ := passes 0 (Nat.zero_le _)
  exact ⟨listing, ok, step, passed, atStart, instruction, argument, code,
    (Option.some.inj read).symm⟩

/-- A call of a named place shows the name. -/
theorem shows_known_names_in_call :
    ∃ names listing, Names.ofSymbols "00:0150 Start" = .ok names ∧
      names.offset? "Start" = some (Bank.flatOffset 0x150 (Bank.ofOffset 0)) ∧
      disassemble (callAndReturn 0x50 0x01) names 0 {} = .ok listing ∧
      listing.PrintsAt {} 0 [] "\tcall Start" := by
  let entry : SymbolFile.Entry := ⟨0, 0x150, "Start"⟩
  have lists : Lists "00:0150 Start" [entry] := by decide
  have accepted := Names.ofSymbols_of_lists lists
  obtain ⟨listing, ok, step, passed, atStart, instruction, argument, code, call⟩ :=
    listed_callAndReturn (by decide : Plain.MayEnd (callAndReturn 0x50 0x01) 0 {} 1)
      (.ofEntries [entry])
  obtain ⟨low, high, second, third, shows⟩ :=
    shows_known_names {} accepted lists ok passed code (by rw [call]; decide)
  rw [atStart] at second third
  cases second
  cases third
  have last : lastNamed? [entry] "Start" = some entry := by decide
  have offset : (Names.ofEntries [entry]).offset? "Start" =
      some (Bank.flatOffset 0x150 (Bank.ofOffset 0)) := by
    rw [Names.offset?_ofEntries, last]
    rfl
  obtain ⟨first, found, _, shown⟩ :=
    (shows (by decide)).1 "Start" entry offset last (by decide) (by decide)
  cases found
  rw [atStart, call] at shown
  exact ⟨_, listing, accepted, offset, ok, shown⟩

/-! ## Offsets that are called by no name -/

/-- A name stands for the offset that a call in bank zero goes to, and the call shows the routine
there instead. -/
def MissesName (text name : String) (low high : UInt8) : Prop :=
  ∃ names listing, Names.ofSymbols text = .ok names ∧
    names.offset? name = some (Bank.flatOffset (Instruction.wordOf low high) (Bank.ofOffset 0)) ∧
    disassemble (callAndReturn low high) names 0 {} = .ok listing ∧
    listing.PrintsAt {} 0 []
      ("\tcall " ++ routineName (Bank.flatOffset (Instruction.wordOf low high) (Bank.ofOffset 0)))

theorem missesName_of_isNameless {text name : String} {entries : List SymbolFile.Entry}
    {entry : SymbolFile.Entry} {low high : UInt8} (lists : Lists text entries)
    (last : lastNamed? entries name = some entry)
    (same : Bank.wrappedOffset entry.address entry.bank =
      Bank.flatOffset (Instruction.wordOf low high) (Bank.ofOffset 0))
    (below : Instruction.wordOf low high < 0x8000)
    (nameless : IsNameless entries (Instruction.wordOf low high) (Bank.ofOffset 0))
    (may : Plain.MayEnd (callAndReturn low high) 0 {} 1) : MissesName text name low high := by
  obtain ⟨listing, ok, step, passed, atStart, instruction, argument, code, call⟩ :=
    listed_callAndReturn may (.ofEntries entries)
  obtain ⟨low', high', second, third, _, printed⟩ :=
    printsAt_goesToWord {} ok passed code (by rw [call]; decide)
  rw [atStart] at second third
  obtain rfl : low = low' := Option.some.inj second
  obtain rfl : high = high' := Option.some.inj third
  refine ⟨_, listing, Names.ofSymbols_of_lists lists, ?_, ok, ?_⟩
  · rw [Names.offset?_ofEntries, last, Option.map_some, same]
  · rw [Names.at?_ofEntries_of_isNameless below nameless, atStart, call] at printed
    exact printed

/-- An entry below the window in another bank than zero, one in the window in bank zero, and one
behind the placeholder at address zero: their names stand for the offset of the call and are not
shown. -/
theorem known_names_missed :
    MissesName "01:0150 Foo" "Foo" 0x50 0x01 ∧ MissesName "00:4000 Foo" "Foo" 0x00 0x40 ∧
      MissesName "00:0000 NULL\n00:0000 Start" "Start" 0x00 0x00 := by
  let switched : SymbolFile.Entry := ⟨1, 0x150, "Foo"⟩
  let unswitched : SymbolFile.Entry := ⟨0, 0x4000, "Foo"⟩
  let null : SymbolFile.Entry := ⟨0, 0, "NULL"⟩
  let start : SymbolFile.Entry := ⟨0, 0, "Start"⟩
  refine ⟨?_, ?_, ?_⟩
  · have lists : Lists "01:0150 Foo" [switched] := by decide
    have last : lastNamed? [switched] "Foo" = some switched := by decide
    exact missesName_of_isNameless lists last (by decide) (by decide) (by decide) (by decide)
  · have lists : Lists "00:4000 Foo" [unswitched] := by decide
    have last : lastNamed? [unswitched] "Foo" = some unswitched := by decide
    exact missesName_of_isNameless lists last (by decide) (by decide) (by decide) (by decide)
  · have lists : Lists "00:0000 NULL\n00:0000 Start" [null, start] := by decide
    have last : lastNamed? [null, start] "Start" = some start := by decide
    exact missesName_of_isNameless lists last (by decide) (by decide) (by decide) (by decide)

end Sm83
