/-! # Reasons why a file cannot be used -/

namespace Sm83.Files

/-- What stands in the way of reading or writing a file. -/
inductive Fault where
  /-- Nothing has this path. -/
  | missing
  /-- The path leads through a file that is no directory. -/
  | notDirectory
  /-- The path leads to a directory. -/
  | isDirectory
  /-- The bytes are not UTF-8. -/
  | notText
  /-- Anything else, in the system's words. -/
  | other (reason : String)
  deriving DecidableEq, Repr

/-- The reason in words. -/
def Fault.message : Fault → String
  | missing => "No such file or directory (os error 2)"
  | notDirectory => "Not a directory (os error 20)"
  | isDirectory => "Is a directory (os error 21)"
  | notText => "stream did not contain valid UTF-8"
  | other reason => reason

/-- The text that bytes encode. -/
def text? (content : ByteArray) : Except Fault String :=
  match String.fromUTF8? content with
  | some text => .ok text
  | none => .error .notText

end Sm83.Files
