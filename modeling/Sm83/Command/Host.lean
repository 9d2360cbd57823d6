import Sm83.Files.Tree

/-!
# What the command runs on

A host reads, finds, prints and writes. The command is written for any host; a desk is the host
that keeps its files in a tree and remembers what was printed.
-/

namespace Sm83.Command

/-- The surroundings of the command. -/
structure Host (m : Type → Type) where
  /-- The value of an environment variable, if it is set. -/
  environment : String → m (Option String)
  /-- The content of a file. -/
  read : String → m (Except Files.Fault ByteArray)
  /-- Whether a path leads to anything. -/
  contains : String → m Bool
  /-- Prints a text. -/
  print : String → m Unit
  /-- Writes a file. -/
  write : String → ByteArray → m (Except Files.Fault Unit)

/-- Files in a tree, environment variables, and the text that was printed. -/
structure Desk where
  tree : Files.Tree
  environment : List (String × String) := []
  printed : String := ""

namespace Desk

/-- Writes a file; a failure leaves the tree as it is. -/
def write (desk : Desk) (path : String) (content : ByteArray) : Except Files.Fault Unit × Desk :=
  match desk.tree.write path content with
  | .error fault => (.error fault, desk)
  | .ok tree => (.ok (), { desk with tree := tree })

/-- The desk as a host. -/
def host : Host (StateM Desk) where
  environment name := fun desk => (desk.environment.lookup name, desk)
  read path := fun desk => (desk.tree.read path, desk)
  contains path := fun desk => (desk.tree.contains path, desk)
  print text := fun desk => ((), { desk with printed := desk.printed ++ text })
  write path content := fun desk => desk.write path content

end Desk

end Sm83.Command
