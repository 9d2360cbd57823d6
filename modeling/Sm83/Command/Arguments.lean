/-!
# Arguments of the command

The command takes one or two positions, options with a path, and flags. It can also be asked about
itself.
-/

namespace Sm83.Command

/-- The options that take a path. -/
inductive PathOption where
  /-- The cartridge image. -/
  | rom
  /-- The file for the listing. -/
  | output
  /-- The symbol file. -/
  | symbols
  /-- The directory that other paths start from. -/
  | base
  /-- The settings. -/
  | settings
  deriving DecidableEq, Repr

/-- The options that stand for themselves. -/
inductive Flag where
  /-- The listing is not printed. -/
  | quiet
  /-- The listing is not written to a file. -/
  | noWrite
  /-- The sweep ends at its stop. -/
  | hardStop
  /-- Data is allowed. -/
  | data
  /-- A report of the work is wanted; what is printed and written stays the same. -/
  | verbose
  deriving DecidableEq, Repr

/-- What an option stands for. -/
inductive Meaning where
  | path (option : PathOption)
  | flag (flag : Flag)
  | version
  | help
  deriving DecidableEq, Repr

/-- The options by their long names. -/
def longOptions : List (String × Meaning) :=
  [("rom", .path .rom), ("output", .path .output), ("symfile", .path .symbols),
    ("path", .path .base), ("config", .path .settings), ("quiet", .flag .quiet),
    ("no-write", .flag .noWrite), ("dry-run", .flag .hardStop), ("parse-data", .flag .data),
    ("debug", .flag .verbose), ("version", .version), ("help", .help)]

/-- The options by their letters. -/
def shortOptions : List (Char × Meaning) :=
  [('r', .path .rom), ('o', .path .output), ('s', .path .symbols), ('c', .path .settings),
    ('q', .flag .quiet), ('d', .flag .hardStop), ('p', .flag .data), ('V', .version), ('h', .help)]

/-- What a listing is asked for with. -/
structure Arguments where
  /-- The position that the listing starts at. -/
  start : String
  /-- The position that it is to stop at. -/
  stop? : Option String
  /-- The path that an option gives. -/
  path? : PathOption → Option String
  /-- Whether a flag is set. -/
  has : Flag → Bool

/-- What the command is asked for. -/
inductive Request where
  /-- A listing. -/
  | listing (arguments : Arguments)
  /-- The version of the command. -/
  | version
  /-- A summary of the options. -/
  | help

end Sm83.Command
