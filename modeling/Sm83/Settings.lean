import Sm83.Files.Fault
import Sm83.Toml.Document

/-!
# Settings

Settings are read from a TOML document. A key that is missing keeps its default, and a key that is
not known is skipped, unless an integer in its value is out of bounds; a document that does not fit
leaves all settings at their defaults.
-/

namespace Sm83

/-- Where the files of constants are. -/
structure ConstantFiles where
  /-- Files for the hardware registers; the first one that exists is used. -/
  hardware : List String := ["gbhw.asm", "constants/hardware_constants.asm"]
  /-- The file for video memory. -/
  vram : String := "vram.asm"
  /-- The file for high memory. -/
  hram : String := "hram.asm"
  deriving DecidableEq, Repr

/-- The settings of the command. -/
structure Settings where
  /-- The directory that all other paths start from. -/
  base : Option String := none
  /-- The cartridge image. -/
  rom : String := "baserom.gbc"
  /-- The file that the listing is written to. -/
  output : String := "gbz80disasm_output.asm"
  /-- What each instruction of the listing starts with. -/
  indent : String := "\t"
  constants : ConstantFiles := {}
  deriving DecidableEq, Repr

namespace Settings

open Toml (Value Entries)

/-- The text of a value. -/
def string? : Value → Option String
  | .string text => some text
  | _ => none

/-- The texts of an array. -/
def strings? : Value → Option (List String)
  | .array items => items.mapM string?
  | _ => none

/-- A value read in the way that fits it, or its default if it is missing. -/
def orDefault {α : Type} (read : Value → Option α) (default : α) : Option Value → Option α
  | none => some default
  | some value => read value

/-- Whether the entries of a table without the given keys can be skipped. -/
def skips (keys : List String) (entries : Entries) : Bool :=
  entries.all fun (key, value) => keys.contains key || value.isBounded

/-- The files of constants in a table by name, or in an array by position. A time names none. -/
def constants? : Value → Option ConstantFiles
  | .table _ entries =>
    if skips ["hardware", "vram", "hram"] entries then
      read (fun name => entries.lookup name) "hardware" "vram" "hram"
    else none
  | .array items => read (items[·]?) 0 1 2
  | .time _ => some {}
  | _ => none
where
  /-- Looks up the three settings by their places. -/
  read {place : Type} (find : place → Option Value) (hardware vram hram : place) :
      Option ConstantFiles := do
    let default : ConstantFiles := {}
    return { hardware := ← orDefault strings? default.hardware (find hardware)
             vram := ← orDefault string? default.vram (find vram)
             hram := ← orDefault string? default.hram (find hram) }

/-- The settings in a document. -/
def ofEntries? (entries : Entries) : Option Settings := do
  guard (skips ["path", "rom", "output", "indent", "constants"] entries)
  let default : Settings := {}
  let find (key : String) : Option Value := entries.lookup key
  return { base := ← orDefault (fun value => (string? value).map some) default.base (find "path")
           rom := ← orDefault string? default.rom (find "rom")
           output := ← orDefault string? default.output (find "output")
           indent := ← orDefault string? default.indent (find "indent")
           constants := ← orDefault constants? default.constants (find "constants") }

/-- The settings that a text writes. -/
def parse? (text : String) : Option Settings := do
  ofEntries? (← Toml.parse? text)

/-- The settings in a file, given how a text is read and what reading the file brought, and whether
the text of the file had to be left aside. A file that cannot be read says nothing. -/
def ofFileWith (read : String → Option Settings) (content : Except Files.Fault ByteArray) :
    Settings × Bool :=
  match content.bind Files.text? with
  | .error _ => ({}, false)
  | .ok text =>
    match read text with
    | some settings => (settings, false)
    | none => ({}, true)

/-- The settings in a file of a TOML document. -/
def ofFile (content : Except Files.Fault ByteArray) : Settings × Bool :=
  ofFileWith parse? content

end Settings

end Sm83
