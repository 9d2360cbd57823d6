import Sm83.Command.Session

/-! # The command on the files of the system -/

namespace Sm83.Command

/-- The fault behind an error of the system, whose codes may be negated. -/
def faultOf : IO.Error → Files.Fault
  | .noFileOrDirectory .. => .missing
  | .inappropriateType _ code _ =>
    if code = 20 ∨ code + 20 = 0 then .notDirectory else .isDirectory
  | error => .other (toString error)

/-- Runs an action and keeps its fault. -/
def attempt {α : Type} (action : IO α) : IO (Except Files.Fault α) := do
  try
    return .ok (← action)
  catch error =>
    return .error (faultOf error)

/-- The system as a host. -/
def system : Host IO where
  environment name := IO.getEnv name
  read path := attempt (IO.FS.readBinFile path)
  contains path := do
    return (← attempt (IO.FS.Handle.mk path .read)).toBool
  print text := IO.print text
  write path content := attempt (IO.FS.writeBinFile path content)

end Sm83.Command

/-- Answers the arguments, reports what went wrong, and ends with the exit code. -/
def main (arguments : List String) : IO UInt32 := do
  let outcome ← Sm83.Command.answer Sm83.Command.system arguments
  match outcome with
  | .rejected => IO.eprint Sm83.Command.usage
  | outcome =>
    if let some message := outcome.message? then
      IO.eprintln (Sm83.Command.commandName ++ ": " ++ message)
  return outcome.exitCode.toUInt32
