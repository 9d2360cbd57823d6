import Sm83.Command.Session
import Sm83.Proofs.Command.CommandLine
import Sm83.Proofs.Names.Constants
import Sm83.Proofs.Names.Entries

/-!
# Where a listing comes from

What a listing is made from is in the files of a desk. `Desk.Provides` says in which of them, and
`Desk.Lists` which listing they give; `listing_eq_ok_iff` finds it or the reason why there is none.
-/

namespace Sm83

namespace Command

namespace Desk

variable (readers : Readers) (desk : Desk) (arguments : Arguments)

/-! ## Files in their places -/

def textAt (path : String) : Option String :=
  (desk.tree.read path).toOption.bind String.fromUTF8?

/-- The file with the settings that is looked for: the one in the directory for settings, or the one
in that of the user, or the one here. -/
def usualSettingsPath : String :=
  let inside (directory : String) : String :=
    Files.Path.join (Files.Path.join directory "gbdis") "config.toml"
  let general := (desk.environment.lookup "XDG_CONFIG_HOME").map inside
  let own := (desk.environment.lookup "HOME").map fun directory =>
    inside (Files.Path.join directory ".config")
  (general <|> own).getD "gbdis.toml"

/-- The file with the settings: the one that was asked for, or the one that is looked for. -/
def settingsPath : String :=
  (arguments.path? .settings).getD desk.usualSettingsPath

/-- The settings that apply: those that the file writes, and the defaults if it writes none. -/
def settings : Settings :=
  ((desk.textAt (desk.settingsPath arguments)).bind readers.settings).getD {}

/-- The path that a path from the arguments or the settings stands for, seen from the directory that
was asked for, or from that of the settings, or from here. -/
def place (path : String) : String :=
  let base := (arguments.path? .base).or (desk.settings readers arguments).base
  Files.Path.join (base.getD ".") path

def romPath : String :=
  desk.place readers arguments ((arguments.path? .rom).getD (desk.settings readers arguments).rom)

def outputPath : String :=
  desk.place readers arguments
    ((arguments.path? .output).getD (desk.settings readers arguments).output)

/-- The path of the symbol file: the one that was asked for, or the one beside the image if there is
one. -/
def symbolsPath? : Option String :=
  let beside := Files.Path.withExtension (desk.romPath readers arguments) "sym"
  match arguments.path? .symbols with
  | some path => some (desk.place readers arguments path)
  | none => if desk.tree.contains beside then some beside else none

/-- The text is that of the file, and there is none without a file. -/
def HoldsText (path? text? : Option String) : Prop :=
  path?.map desk.textAt = text?.map some

/-- The text is that of the first file that there is. -/
def HoldsFirst (paths : List String) (text? : Option String) : Prop :=
  desk.HoldsText (paths.find? desk.tree.contains) text?

/-- The text of a listing under the settings. -/
def textOf (listing : Listing) : String :=
  listing.text { indent := (desk.settings readers arguments).indent, showEnd := true }

end Desk

/-- What a listing is made from. -/
structure Sources where
  image : ByteArray
  /-- The entries of the symbol file. -/
  entries : List SymbolFile.Entry
  hardware : Option String
  vram : Option String
  hram : Option String
  start : Nat
  stop : Option Nat

/-- The constants, by regions. -/
def Sources.constants (sources : Sources) : List (Region × String) :=
  (sources.hardware.map (.hardware, ·)).toList ++ (sources.vram.map (.vram, ·)).toList ++
    (sources.hram.map (.hram, ·)).toList

/-- All names: those of the entries with the constants. -/
def Sources.names (sources : Sources) : Names :=
  (Names.ofEntries sources.entries).withConstants sources.constants

namespace Desk

/-- The files of a desk and the arguments provide what a listing is made from. -/
structure Provides (readers : Readers) (desk : Desk) (arguments : Arguments) (sources : Sources) :
    Prop where
  image : desk.tree.read (desk.romPath readers arguments) = .ok sources.image
  fits : sources.image.size ≤ 0x200000
  entries : ∃ text?, desk.HoldsText (desk.symbolsPath? readers arguments) text? ∧
    SymbolFile.Lists (text?.getD "") sources.entries
  hardware : desk.HoldsFirst ((desk.settings readers arguments).constants.hardware.map
    (desk.place readers arguments)) sources.hardware
  vram : desk.HoldsFirst
    [desk.place readers arguments (desk.settings readers arguments).constants.vram] sources.vram
  hram : desk.HoldsFirst
    [desk.place readers arguments (desk.settings readers arguments).constants.hram] sources.hram
  start : Position.resolve sources.names arguments.start = .ok sources.start
  stop : arguments.stop?.map (Position.resolve sources.names) = sources.stop.map .ok

/-- The files of a desk and the arguments give a listing. -/
def Lists (readers : Readers) (desk : Desk) (arguments : Arguments) (listing : Listing) : Prop :=
  ∃ sources, desk.Provides readers arguments sources ∧
    disassemble sources.image sources.names sources.start
      { stop := sources.stop
        hardStop := arguments.has .hardStop
        allowData := arguments.has .data } = .ok listing

variable (readers : Readers) (desk : Desk) (arguments : Arguments)

/-! ## What is found in the files -/

def cartridge : Except Failure Cartridge :=
  (Cartridge.ofFile (desk.romPath readers arguments)
    (desk.tree.read (desk.romPath readers arguments))).mapError .cartridge

def symbols : Except Failure Names :=
  match desk.symbolsPath? readers arguments with
  | none => .ok .empty
  | some path => (Names.ofSymbolFile path (desk.tree.read path)).mapError .symbols

def constantsText (path : String) : Except Failure String :=
  ((desk.tree.read path).bind Files.text?).mapError fun fault => .symbols (.unreadable path fault)

/-- The constants for a region: those in the first file that there is. -/
def constants (region : Region) (paths : List String) : Except Failure (List (Region × String)) :=
  match paths.find? desk.tree.contains with
  | none => .ok []
  | some path => (desk.constantsText path).map fun text => [(region, text)]

/-- All names: those of the symbol file with the constants for the three regions. -/
def names : Except Failure Names := do
  let files := (desk.settings readers arguments).constants
  let place := desk.place readers arguments
  let symbols ← desk.symbols readers arguments
  let hardware ← desk.constants .hardware (files.hardware.map place)
  let vram ← desk.constants .vram [place files.vram]
  let hram ← desk.constants .hram [place files.hram]
  return symbols.withConstants (hardware ++ vram ++ hram)

def listing : Except Failure Listing := do
  let cartridge ← desk.cartridge readers arguments
  let names ← desk.names readers arguments
  listingOf arguments cartridge names

end Desk

/-! ## What is found is what the files hold -/

theorem bind_eq_ok_iff {α β : Type} {action : Except Failure α} {next : α → Except Failure β}
    {result : β} :
    (action >>= next) = .ok result ↔ ∃ value, action = .ok value ∧ next value = .ok result :=
  Except.bind_eq_ok_iff

theorem mapError_eq_ok_iff {ε α : Type} {action : Except ε α} {cause : ε → Failure} {value : α} :
    action.mapError cause = .ok value ↔ action = .ok value := by
  cases action with
  | error error => constructor <;> intro found <;> cases found
  | ok found =>
      constructor
      · rintro ⟨⟩
        rfl
      · rintro ⟨⟩
        rfl

theorem fromUTF8?_toUTF8 (text : String) : String.fromUTF8? text.toUTF8 = some text := by
  rw [String.toUTF8_eq_toByteArray, String.fromUTF8?, dif_pos text.isValidUTF8]
  rfl

namespace Desk

variable {readers : Readers} {desk : Desk} {arguments : Arguments}

theorem cartridge_eq_ok_iff {cartridge : Cartridge} :
    desk.cartridge readers arguments = .ok cartridge ↔
      desk.tree.read (desk.romPath readers arguments) = .ok cartridge.image := by
  rw [Desk.cartridge, mapError_eq_ok_iff]
  cases desk.tree.read (desk.romPath readers arguments) with
  | error fault => simp [Cartridge.ofFile]
  | ok image =>
      obtain ⟨image', fits⟩ := cartridge
      rw [Cartridge.ofFile, Cartridge.ofImage]
      split
      · simp
      · next large =>
          simp only [reduceCtorEq, Except.ok.injEq, false_iff]
          rintro rfl
          exact large fits

theorem text?_eq_ok_iff {path text : String} :
    (desk.tree.read path).bind Files.text? = .ok text ↔ desk.textAt path = some text := by
  rw [textAt]
  cases desk.tree.read path with
  | error fault => simp [Except.bind, Except.toOption]
  | ok content =>
      simp only [Except.bind, Except.toOption, Files.text?, Option.bind_some]
      cases String.fromUTF8? content <;> simp

theorem textAt_of_read {path text : String}
    (read : desk.tree.read path = .ok text.toUTF8) : desk.textAt path = some text := by
  rw [textAt, read]
  exact fromUTF8?_toUTF8 text

theorem holdsText_none_iff {text? : Option String} : desk.HoldsText none text? ↔ text? = none := by
  rw [HoldsText, Option.map_none, eq_comm, Option.map_eq_none_iff]

theorem holdsText_some_iff {path : String} {text? : Option String} :
    desk.HoldsText (some path) text? ↔
      ∃ text, desk.textAt path = some text ∧ text? = some text := by
  rw [HoldsText, Option.map_some]
  cases text? with
  | none => simp
  | some text => simp

theorem holdsFirst_of_contains {path text : String} {paths : List String}
    (there : desk.tree.contains path = true) (read : desk.textAt path = some text) :
    desk.HoldsFirst (path :: paths) (some text) := by
  rw [HoldsFirst, List.find?_cons_of_pos there]
  exact holdsText_some_iff.mpr ⟨text, read, rfl⟩

theorem holdsFirst_of_missing {path : String}
    (missing : desk.tree.contains path = false) : desk.HoldsFirst [path] none := by
  rw [HoldsFirst, List.find?_singleton, missing]
  exact holdsText_none_iff.mpr rfl

theorem ofSymbolFile_eq_ok_iff {path : String} {names : Names} :
    Names.ofSymbolFile path (desk.tree.read path) = .ok names ↔
      ∃ text, desk.textAt path = some text ∧ Names.ofSymbols text = .ok names := by
  simp only [← text?_eq_ok_iff]
  rw [Names.ofSymbolFile]
  cases (desk.tree.read path).bind Files.text? with
  | error fault => simp
  | ok text => simp

theorem symbols_eq_ok_iff {names : Names} :
    desk.symbols readers arguments = .ok names ↔
      ∃ entries, (∃ text?, desk.HoldsText (desk.symbolsPath? readers arguments) text? ∧
        SymbolFile.Lists (text?.getD "") entries) ∧ names = .ofEntries entries := by
  rw [symbols]
  cases desk.symbolsPath? readers arguments with
  | none =>
      have nothing : SymbolFile.Lists "" [] := by decide
      have empty : Names.ofSymbols "" = .ok .empty := Names.ofSymbols_of_lists nothing
      simp only [holdsText_none_iff, exists_eq_left, Option.getD_none]
      rw [← Names.ofSymbols_eq_ok_iff, empty, Except.ok.injEq, Except.ok.injEq]
  | some path =>
      simp only [holdsText_some_iff, mapError_eq_ok_iff, ofSymbolFile_eq_ok_iff,
        Names.ofSymbols_eq_ok_iff]
      constructor
      · rintro ⟨text, read, entries, lists, rfl⟩
        exact ⟨entries, ⟨some text, ⟨text, read, rfl⟩, lists⟩, rfl⟩
      · rintro ⟨entries, ⟨_, ⟨text, read, rfl⟩, lists⟩, rfl⟩
        exact ⟨text, read, entries, lists, rfl⟩

theorem constants_eq_ok_iff {region : Region} {paths : List String}
    {texts : List (Region × String)} :
    desk.constants region paths = .ok texts ↔
      ∃ text?, desk.HoldsFirst paths text? ∧ texts = (text?.map (region, ·)).toList := by
  simp only [HoldsFirst]
  rw [constants]
  cases paths.find? desk.tree.contains with
  | none =>
      simp only [holdsText_none_iff, exists_eq_left, Option.map_none, Option.toList_none,
        Except.ok.injEq]
      exact eq_comm
  | some path =>
      simp only [holdsText_some_iff, Except.map_eq_ok_iff, constantsText, mapError_eq_ok_iff,
        text?_eq_ok_iff]
      constructor
      · rintro ⟨text, read, rfl⟩
        exact ⟨some text, ⟨text, read, rfl⟩, rfl⟩
      · rintro ⟨_, ⟨text, read, rfl⟩, rfl⟩
        exact ⟨text, read, rfl⟩

theorem mapM_resolve_eq_ok_iff {names : Names} {text? : Option String} {offset? : Option Nat} :
    text?.mapM (fun text => (Position.resolve names text).mapError Failure.position) = .ok offset? ↔
      text?.map (Position.resolve names) = offset?.map .ok := by
  cases text? with
  | none => cases offset? <;> simp [pure, Except.pure]
  | some text =>
      simp only [Option.mapM_some, map_eq_pure_bind, bind_eq_ok_iff, mapError_eq_ok_iff,
        Option.map_some]
      cases offset? <;> simp [pure, Except.pure]

theorem listingOf_eq_ok_iff {cartridge : Cartridge} {names : Names} {listing : Listing} :
    listingOf arguments cartridge names = .ok listing ↔
      ∃ start stop, Position.resolve names arguments.start = .ok start ∧
        arguments.stop?.map (Position.resolve names) = stop.map .ok ∧
        disassemble cartridge.image names start
          { stop := stop
            hardStop := arguments.has .hardStop
            allowData := arguments.has .data } = .ok listing := by
  simp only [listingOf, bind_eq_ok_iff, mapError_eq_ok_iff, mapM_resolve_eq_ok_iff]
  constructor
  · rintro ⟨start, first, stop, last, swept⟩
    exact ⟨start, stop, first, last, swept⟩
  · rintro ⟨start, stop, first, last, swept⟩
    exact ⟨start, first, stop, last, swept⟩

theorem listing_eq_ok_iff {listing : Listing} :
    desk.listing readers arguments = .ok listing ↔ desk.Lists readers arguments listing := by
  simp only [Desk.listing, Desk.names, bind_eq_ok_iff, listingOf_eq_ok_iff, cartridge_eq_ok_iff,
    symbols_eq_ok_iff, constants_eq_ok_iff]
  constructor
  · rintro ⟨cartridge, image, _, ⟨_, ⟨entries, listed, rfl⟩, _, ⟨hardware, ofHardware, rfl⟩, _,
      ⟨vram, ofVram, rfl⟩, _, ⟨hram, ofHram, rfl⟩, ⟨⟩⟩, start, stop, first, last, swept⟩
    exact ⟨⟨cartridge.image, entries, hardware, vram, hram, start, stop⟩,
      ⟨image, cartridge.size_le, listed, ofHardware, ofVram, ofHram, first, last⟩, swept⟩
  · rintro ⟨sources, provides, swept⟩
    exact ⟨⟨sources.image, provides.fits⟩, provides.image, sources.names,
      ⟨_, ⟨_, provides.entries, rfl⟩, _, ⟨_, provides.hardware, rfl⟩, _, ⟨_, provides.vram, rfl⟩,
        _, ⟨_, provides.hram, rfl⟩, rfl⟩, _, _, provides.start, provides.stop, swept⟩

theorem Lists.unique {listing listing' : Listing} (lists : desk.Lists readers arguments listing)
    (lists' : desk.Lists readers arguments listing') : listing' = listing := by
  have same := (listing_eq_ok_iff.mpr lists').symm.trans (listing_eq_ok_iff.mpr lists)
  exact Except.ok.inj same

end Desk

end Command

end Sm83
