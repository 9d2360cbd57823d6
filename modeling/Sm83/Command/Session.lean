import Sm83.Cartridge
import Sm83.Command.CommandLine
import Sm83.Command.Host
import Sm83.Names.Constants
import Sm83.Position
import Sm83.Settings
import Sm83.Sweep.Run

/-!
# Sessions

A session answers one request. A listing needs the settings, the image, the names and the positions,
in this order, and the first of them that fails ends the session. Only then is anything printed or
written.
-/

namespace Sm83.Command

/-- How the command understands the texts that are meant for it. -/
structure Readers where
  /-- What arguments ask for, if they are accepted. -/
  arguments : List String → Option Request
  /-- The settings that a text writes, if it is accepted. -/
  settings : String → Option Settings

/-- Arguments as options, and settings as a TOML document. -/
def Readers.standard : Readers where
  arguments := Request.ofArguments?
  settings := Settings.parse?

/-- The name of the command. -/
def commandName : String := "gbdis"

/-- The version of the command. -/
def version : String := "0.1.0"

/-- Why a session fails. -/
inductive Failure where
  | cartridge (error : CartridgeError)
  | symbols (error : SymbolError)
  | position (error : PositionError)
  | sweep (error : SweepError)
  /-- The listing cannot be written. -/
  | unwritable (path : String) (fault : Files.Fault)
  deriving DecidableEq, Repr

/-- The failure in words. -/
def Failure.message : Failure → String
  | cartridge error => error.message
  | symbols error => error.message
  | position error => error.message
  | sweep error => error.message
  | unwritable path fault => "failed to write " ++ path ++ ": " ++ fault.message

/-- How a session ends. -/
inductive Outcome where
  | success
  | failure (cause : Failure)
  /-- The arguments are not accepted. -/
  | rejected
  deriving DecidableEq, Repr

namespace Outcome

/-- The exit code. -/
def exitCode : Outcome → Nat
  | success => 0
  | failure _ => 1
  | rejected => 2

/-- What is reported, if anything. -/
def message? : Outcome → Option String
  | failure cause => some cause.message
  | success | rejected => none

end Outcome

/-- The options in short. -/
def usage : String :=
  "Usage: " ++ commandName ++ " [OPTIONS] <OFFSET> [END]\n\n" ++
  "Options:\n" ++
  "  -r, --rom <ROM>          Path to ROM file\n" ++
  "  -o, --output <OUTPUT>    Path to the output file\n" ++
  "  -s, --symfile <SYMFILE>  Path to the symbol file\n" ++
  "      --path <PATH>        Base directory for all other files\n" ++
  "  -c, --config <CONFIG>    Path to the configuration file\n" ++
  "  -q, --quiet              Do not print the listing\n" ++
  "      --no-write           Do not write the output file\n" ++
  "  -d, --dry-run            Stop exactly at the end location\n" ++
  "  -p, --parse-data         Emit bytes referenced as data as db directives\n" ++
  "      --debug              Enable debug logging\n" ++
  "  -h, --help               Print help\n" ++
  "  -V, --version            Print version\n"

section Answer

variable {m : Type → Type} [Monad m] (readers : Readers) (host : Host m)

/-- The file with the settings: in the directory for settings, or in that of the user, or here. -/
def settingsPath : m String := do
  match ← host.environment "XDG_CONFIG_HOME" with
  | some directory => return Files.Path.join (Files.Path.join directory commandName) "config.toml"
  | none =>
    match ← host.environment "HOME" with
    | some directory =>
      let settings := Files.Path.join directory ".config"
      return Files.Path.join (Files.Path.join settings commandName) "config.toml"
    | none => return commandName ++ ".toml"

/-- The settings that apply. -/
def readSettings (arguments : Arguments) : m Settings := do
  let path ← match arguments.path? .settings with
    | some path => pure path
    | none => settingsPath host
  return (Settings.ofFileWith readers.settings (← host.read path)).1

/-- The directory that all other paths start from. -/
def baseOf (arguments : Arguments) (settings : Settings) : String :=
  (arguments.path? .base <|> settings.base).getD "."

/-- The path of the cartridge image. -/
def romPath (arguments : Arguments) (settings : Settings) : String :=
  Files.Path.join (baseOf arguments settings) ((arguments.path? .rom).getD settings.rom)

/-- The path that the listing is written to. -/
def outputPath (arguments : Arguments) (settings : Settings) : String :=
  Files.Path.join (baseOf arguments settings) ((arguments.path? .output).getD settings.output)

/-- Reads a cartridge image. -/
def readCartridge (path : String) : ExceptT Failure m Cartridge := do
  match Cartridge.ofFile path (← host.read path) with
  | .ok cartridge => return cartridge
  | .error error => throw (.cartridge error)

/-- Reads a symbol file. -/
def readSymbols (path : String) : ExceptT Failure m Names := do
  match Names.ofSymbolFile path (← host.read path) with
  | .ok names => return names
  | .error error => throw (.symbols error)

/-- Reads the symbol file that was asked for, or the one beside the image if there is one. -/
def readNames (arguments : Arguments) (settings : Settings) : ExceptT Failure m Names := do
  match arguments.path? .symbols with
  | some path => readSymbols host (Files.Path.join (baseOf arguments settings) path)
  | none =>
    let path := Files.Path.withExtension (romPath arguments settings) "sym"
    if ← host.contains path then readSymbols host path else return .empty

/-- Adds the constants of a file for a region. Without the file there is no result. -/
def addConstants? (names : Names) (path : String) (region : Region) :
    ExceptT Failure m (Option Constants.Merged) := do
  if ← host.contains path then
    match names.addConstantsFile path region (← host.read path) with
    | .ok merged => return some merged
    | .error error => throw (.symbols error)
  else return none

/-- Adds the constants of the first file that exists. -/
def addFirstConstants (names : Names) (region : Region) : List String → ExceptT Failure m Names
  | [] => return names
  | path :: rest => do
    match ← addConstants? host names path region with
    | some merged => return merged.names
    | none => addFirstConstants names region rest

/-- All names: those of the symbol file and the constants for each region. -/
def readAllNames (arguments : Arguments) (settings : Settings) : ExceptT Failure m Names := do
  let place := Files.Path.join (baseOf arguments settings)
  let names ← readNames host arguments settings
  let names ← addFirstConstants host names .hardware (settings.constants.hardware.map place)
  let names ← addFirstConstants host names .vram [place settings.constants.vram]
  addFirstConstants host names .hram [place settings.constants.hram]

/-- The listing that arguments ask for, given the image and the names. -/
def listingOf (arguments : Arguments) (cartridge : Cartridge) (names : Names) :
    Except Failure Listing := do
  let resolve (text : String) : Except Failure Nat :=
    (Position.resolve names text).mapError .position
  let start ← resolve arguments.start
  let stop ← arguments.stop?.mapM resolve
  let options : Options :=
    { stop := stop, hardStop := arguments.has .hardStop, allowData := arguments.has .data }
  (disassemble cartridge.image names start options).mapError .sweep

/-- The text of the listing that arguments ask for. -/
def readListing (arguments : Arguments) (settings : Settings) : ExceptT Failure m String := do
  let cartridge ← readCartridge host (romPath arguments settings)
  let names ← readAllNames host arguments settings
  match listingOf arguments cartridge names with
  | .ok listing => return listing.text { indent := settings.indent, showEnd := true }
  | .error cause => throw cause

/-- Prints a listing and writes it to a file, unless the arguments say otherwise. -/
def deliver (arguments : Arguments) (path text : String) : ExceptT Failure m Unit := do
  if !arguments.has .quiet then host.print (text ++ "\n")
  if !arguments.has .noWrite then
    match ← host.write path text.toUTF8 with
    | .ok () => return ()
    | .error fault => throw (.unwritable path fault)

/-- Answers a request for a listing. -/
def deliverListing (arguments : Arguments) : ExceptT Failure m Unit := do
  let settings ← ExceptT.lift (readSettings readers host arguments)
  let text ← readListing host arguments settings
  deliver host arguments (outputPath arguments settings) text

/-- Answers the request that arguments make. -/
def answerWith (texts : List String) : m Outcome := do
  match readers.arguments texts with
  | none => return .rejected
  | some .version =>
    host.print (commandName ++ " " ++ version ++ "\n")
    return .success
  | some .help =>
    host.print usage
    return .success
  | some (.listing arguments) =>
    match ← (deliverListing readers host arguments).run with
    | .ok () => return .success
    | .error cause => return .failure cause

/-- Answers the request that arguments make as options. -/
def answer (texts : List String) : m Outcome :=
  answerWith .standard host texts

end Answer

end Sm83.Command
