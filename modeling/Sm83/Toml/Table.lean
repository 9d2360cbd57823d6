import Sm83.Toml.Value

/-!
# Adding to tables

A table that has a header, or is complete, is not written a second time: dotted keys add only to
tables that dotted keys made, and a header only opens a table that other headers led through.
-/

namespace Sm83.Toml

/-- A key: the tables that lead to an entry, and its name there. -/
structure Key where
  path : List String
  name : String
  deriving DecidableEq, Repr

/-- Goes down a path from a table with an origin and changes the entries at its end. Tables that are
missing on the way are made with the origin of the path. -/
def descend (made : Origin) (change : Origin → Entries → Option Entries) :
    Origin → List String → Entries → Option Entries
  | here, [], entries => change here entries
  | _, name :: path, entries =>
    match entries.lookup name with
    | none => do
      let inner ← descend made change made path []
      return entries.set name (.table made inner)
    | some (.table origin inner) =>
      if origin = .inline ∨ (made = .dotted ∧ origin = .header) then none
      else do
        let inner ← descend made change origin path inner
        return entries.set name (.table origin inner)
    | some (.tables (last :: earlier)) => do
      let last ← descend made change .header path last
      return entries.set name (.tables (last :: earlier))
    | some _ => none

namespace Entries

/-- Enters a value under a new name. A dotted key ends only in a table that dotted keys made. -/
def enter (dotted : Bool) (name : String) (value : Value) (here : Origin) (entries : Entries) :
    Option Entries :=
  if dotted ≠ decide (here = .dotted) then none
  else if (entries.lookup name).isSome then none
  else some (entries ++ [(name, value)])

/-- Adds an entry to a table that is being written. -/
def add? (entries : Entries) (entry : Key × Value) : Option Entries :=
  let (key, value) := entry
  descend .dotted (enter (!key.path.isEmpty) key.name value) .header key.path entries

/-- The table with entries. -/
def ofList? (entries : List (Key × Value)) : Option Entries :=
  entries.foldlM add? []

end Entries

end Sm83.Toml
