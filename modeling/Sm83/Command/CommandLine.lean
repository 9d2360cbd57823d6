import Sm83.Command.Arguments
import Sm83.Text.Line

/-!
# Reading command lines

Options may stand anywhere among the positions, until two dashes end them. The first thing that
settles what is asked for wins: an error, or a question about the command itself.
-/

namespace Sm83.Command

/-- Why reading arguments stops before their end. -/
inductive Halt where
  /-- The arguments are not accepted. -/
  | rejected
  /-- The command is asked for its version. -/
  | version
  /-- The command is asked for a summary of its options. -/
  | help
  deriving DecidableEq, Repr

/-- What has been read of the arguments. -/
structure Gathered where
  /-- The start and the stop, as far as they are given. -/
  positions : List String := []
  paths : List (PathOption × String) := []
  flags : List Flag := []
  deriving DecidableEq, Repr

namespace Gathered

/-- At most a start and a stop are accepted. -/
def addPosition (gathered : Gathered) (text : String) : Except Halt Gathered :=
  if gathered.positions.length < 2 then
    .ok { gathered with positions := gathered.positions ++ [text] }
  else .error .rejected

/-- An option takes one path, which is not empty. -/
def addPath (gathered : Gathered) (option : PathOption) (path : String) : Except Halt Gathered :=
  if path.isEmpty || (gathered.paths.lookup option).isSome then .error .rejected
  else .ok { gathered with paths := (option, path) :: gathered.paths }

/-- A flag is set once. -/
def addFlag (gathered : Gathered) (flag : Flag) : Except Halt Gathered :=
  if gathered.flags.contains flag then .error .rejected
  else .ok { gathered with flags := flag :: gathered.flags }

/-- What an option without a path does. -/
def addSimple (gathered : Gathered) : Meaning → Except Halt Gathered
  | .flag flag => gathered.addFlag flag
  | .version => .error .version
  | .help => .error .help
  | .path _ => .error .rejected

/-- Reads what stands behind an option in its argument: the path, maybe behind an equals sign. If
nothing does, the next argument is the path, and the option is the second part of the result. -/
def addAttached (gathered : Gathered) (option : PathOption) :
    List Char → Except Halt (Gathered × Option PathOption)
  | [] => .ok (gathered, some option)
  | '=' :: path => (gathered.addPath option (String.ofList path)).map (·, none)
  | path => (gathered.addPath option (String.ofList path)).map (·, none)

/-- Reads the letters behind a single dash; the result is as for what stands behind an option. -/
def addLetters (gathered : Gathered) : List Char → Except Halt (Gathered × Option PathOption)
  | [] => .ok (gathered, none)
  | letter :: rest =>
    match shortOptions.lookup letter with
    | none => .error .rejected
    | some (.path option) => gathered.addAttached option rest
    | some meaning => (gathered.addSimple meaning).bind fun gathered => gathered.addLetters rest

/-- Reads the text behind two dashes; the result is as for letters. -/
def addLong (gathered : Gathered) (text : List Char) :
    Except Halt (Gathered × Option PathOption) :=
  match Text.cut? '=' text with
  | some (name, path) =>
    match longOptions.lookup (String.ofList name) with
    | some (.path option) => (gathered.addPath option (String.ofList path)).map (·, none)
    | _ => .error .rejected
  | none =>
    match longOptions.lookup (String.ofList text) with
    | none => .error .rejected
    | some (.path option) => .ok (gathered, some option)
    | some meaning => (gathered.addSimple meaning).map (·, none)

/-- Whether an argument is read for options: it starts with a dash and holds more than that. -/
def isOption (text : String) : Bool :=
  text.toList.head? == some '-' && text != "-"

/-- Reads an argument for options; the result is as for letters. -/
def addOption (gathered : Gathered) (text : String) : Except Halt (Gathered × Option PathOption) :=
  match text.toList with
  | '-' :: '-' :: name => gathered.addLong name
  | _ :: letters => gathered.addLetters letters
  | [] => .error .rejected

/-- Reads arguments behind those read so far. -/
def addAll (gathered : Gathered) : List String → Except Halt Gathered
  | [] => .ok gathered
  | text :: rest =>
    if text = "--" then rest.foldlM addPosition gathered
    else if isOption text then
      match gathered.addOption text, rest with
      | .error halt, _ => .error halt
      | .ok (gathered, none), rest => gathered.addAll rest
      | .ok (_, some _), [] => .error .rejected
      | .ok (gathered, some option), path :: rest =>
        if isOption path then .error .rejected
        else (gathered.addPath option path).bind fun gathered => gathered.addAll rest
    else (gathered.addPosition text).bind fun gathered => gathered.addAll rest

/-- What has been said, once all arguments are read; without a start nothing is asked for. -/
def arguments? (gathered : Gathered) : Option Arguments :=
  match gathered.positions with
  | [] => none
  | start :: rest =>
    some { start := start
           stop? := rest.head?
           path? := fun option => gathered.paths.lookup option
           has := fun flag => gathered.flags.contains flag }

end Gathered

/-- What arguments ask for. -/
def Request.ofArguments? (texts : List String) : Option Request :=
  match Gathered.addAll {} texts with
  | .error .rejected => none
  | .error .version => some .version
  | .error .help => some .help
  | .ok gathered => gathered.arguments?.map .listing

end Sm83.Command
