import Sm83.Files.Fault
import Sm83.Files.Path

/-!
# Trees of files

A tree holds the files below the directory in which the command runs. Paths lead through it name by
name. The directories that contain the whole tree are places of dots only, and nothing is known of
what else they contain.
-/

namespace Sm83.Files

/-- A file or a directory. -/
inductive Node where
  | file (content : ByteArray)
  | directory

/-- Files and directories by the names that lead to them. -/
structure Tree where
  nodes : List (List String × Node) := []

namespace Tree

/-- Whether a place is the directory of the whole tree or contains it. -/
def isOuter (place : List String) : Bool :=
  place.all (· == "..")

/-- What is at a place. -/
def node? (tree : Tree) (place : List String) : Option Node :=
  if isOuter place then some .directory else tree.nodes.lookup place

/-- Puts a node at a place, instead of the one that is there. -/
def set (tree : Tree) (place : List String) (node : Node) : Tree :=
  ⟨(place, node) :: tree.nodes.filter fun (other, _) => other != place⟩

/-- Puts a node at a place, together with the directories that lead there. -/
def plant (tree : Tree) (place : List String) (node : Node) : Tree :=
  let leading := (List.range place.length).map fun length => place.take length
  let tree := leading.foldl (fun tree place => tree.set place .directory) tree
  tree.set place node

/-- The fault of a place that is to be a directory, if it has one. -/
def directoryFault? (tree : Tree) (place : List String) : Option Fault :=
  match tree.node? place with
  | some .directory => none
  | some (.file _) => some .notDirectory
  | none => some .missing

/-- Walks from a place on, name by name. All places but the last must be directories; an empty name
and a dot stay at their place, and two dots go back. -/
def walk (tree : Tree) : List String → List String → Except Fault (List String)
  | place, [] => .ok place
  | place, name :: rest =>
    match tree.directoryFault? place with
    | some fault => .error fault
    | none =>
      if name = "" ∨ name = "." then tree.walk place rest
      else if name = ".." then
        tree.walk (if isOuter place then place ++ [".."] else place.dropLast) rest
      else tree.walk (place ++ [name]) rest

/-- The place that names on a path lead to. -/
def locate (tree : Tree) (path : String) (names : List String) : Except Fault (List String) :=
  if path.isEmpty then .error .missing
  else tree.walk (if Path.isAbsolute path then [".."] else []) names

/-- The content of the file that a path leads to. -/
def read (tree : Tree) (path : String) : Except Fault ByteArray :=
  match tree.locate path (Path.names path) with
  | .error fault => .error fault
  | .ok place =>
    match tree.node? place with
    | some (.file content) => .ok content
    | some .directory => .error .isDirectory
    | none => .error .missing

/-- Whether a path leads to anything. -/
def contains (tree : Tree) (path : String) : Bool :=
  match tree.locate path (Path.names path) with
  | .error _ => false
  | .ok place => (tree.node? place).isSome

/-- The place of the file that can be written under a path. A slash at the end asks for a
directory. -/
def target (tree : Tree) (path : String) : Except Fault (List String) :=
  let names := Path.names path
  let kept := (names.reverse.dropWhile (· == "")).reverse
  if kept.length < names.length then
    (tree.locate path (kept.dropLast ++ [""])).bind fun _ => .error .isDirectory
  else match tree.locate path names with
    | .error fault => .error fault
    | .ok place =>
      match tree.node? place with
      | some .directory => .error .isDirectory
      | some (.file _) | none => .ok place

/-- Writes a file. -/
def write (tree : Tree) (path : String) (content : ByteArray) : Except Fault Tree :=
  (tree.target path).map fun place => tree.set place (.file content)

theorem lookup_filter_ne {place other : List String} (nodes : List (List String × Node))
    (h : place ≠ other) :
    (nodes.filter fun (entry, _) => entry != other).lookup place = nodes.lookup place := by
  induction nodes with
  | nil => rfl
  | cons entry nodes ih =>
    obtain ⟨found, node⟩ := entry
    by_cases hf : found = other
    · simp [hf, List.lookup_cons, ih, show (place == other) = false by simpa using h]
    · simp [hf, List.lookup_cons, ih]

/-- Setting one place changes no other. -/
theorem node?_set_of_ne {tree : Tree} {place other : List String} {node : Node}
    (h : other ≠ place) : (tree.set place node).node? other = tree.node? other := by
  unfold node? set
  split
  · rfl
  · have hn : (other == place) = false := by simpa using h
    rw [List.lookup_cons, hn]
    exact lookup_filter_ne tree.nodes h

end Tree

end Sm83.Files
