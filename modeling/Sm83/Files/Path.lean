/-! # Paths -/

namespace Sm83.Files.Path

/-- Whether a path starts at the root of all directories. -/
def isAbsolute (path : String) : Bool :=
  path.toList.head? == some '/'

/-- The path that leads from a directory on by a second path. An absolute path leads from
everywhere to the same place, and from the empty path every path leads to itself. -/
def join (directory path : String) : String :=
  if isAbsolute path || directory.isEmpty then path
  else if directory.toList.getLast? == some '/' then directory ++ path
  else directory ++ "/" ++ path

/-- The names on a path, in their order; what stands before, behind and between its slashes counts,
be it empty or not. -/
def names (path : String) : List String :=
  (path.toList.splitOn '/').map String.ofList

/-- Replaces what follows the last dot of a name, or appends it if there is no dot but one in front
of the whole name. -/
def renameExtension (extension name : List Char) : List Char :=
  let ending := (name.reverse.takeWhile (· != '.')).reverse
  let stem := name.take (name.length - (ending.length + 1))
  if name = ['.', '.'] then name
  else if stem.isEmpty then name ++ '.' :: extension
  else stem ++ '.' :: extension

/-- The path of a file with another extension. -/
def withExtension (path extension : String) : String :=
  let chars := path.toList
  let name := (chars.reverse.takeWhile (· != '/')).reverse
  String.ofList (chars.take (chars.length - name.length) ++ renameExtension extension.toList name)

end Sm83.Files.Path
