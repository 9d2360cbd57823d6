/-! # Values of a TOML document -/

namespace Sm83.Toml

/-- How a table came to be, which decides what may still be added to it. -/
inductive Origin where
  /-- The table has a header of its own, or is the document. -/
  | header
  /-- The header of another table leads through it. -/
  | implied
  /-- A dotted key leads through it. -/
  | dotted
  /-- It is written in braces, and complete. -/
  | inline
  deriving DecidableEq, Repr

/-- A value. Numbers that are not integers and times are kept as they are written. -/
inductive Value where
  | string (text : String)
  | integer (value : Int)
  | float (text : String)
  | boolean (value : Bool)
  | time (text : String)
  | array (items : List Value)
  | table (origin : Origin) (entries : List (String × Value))
  /-- The tables under one repeated header, the last one first. -/
  | tables (elements : List (List (String × Value)))

/-- The entries of a table, in the order of their keys' first appearance. -/
abbrev Entries := List (String × Value)

mutual

/-- Whether each integer in a value fits into 128 bits, be it with a sign or without. -/
def Value.isBounded : Value → Bool
  | .integer value =>
    decide (-0x80000000000000000000000000000000 ≤ value ∧
      value < 0x100000000000000000000000000000000)
  | .array items => Value.allBounded items
  | .table _ entries => Entries.isBounded entries
  | .tables elements => Entries.allBounded elements
  | .string _ | .float _ | .boolean _ | .time _ => true

/-- Whether each integer in a list of values is in bounds. -/
def Value.allBounded : List Value → Bool
  | [] => true
  | value :: rest => value.isBounded && Value.allBounded rest

/-- Whether each integer in a table is in bounds. -/
def Entries.isBounded : List (String × Value) → Bool
  | [] => true
  | (_, value) :: rest => value.isBounded && Entries.isBounded rest

/-- Whether each integer in a list of tables is in bounds. -/
def Entries.allBounded : List (List (String × Value)) → Bool
  | [] => true
  | entries :: rest => Entries.isBounded entries && Entries.allBounded rest

end

namespace Entries

/-- Gives a key a value, in place of the one that it has. -/
def set (key : String) (value : Value) : Entries → Entries
  | [] => [(key, value)]
  | (other, old) :: rest =>
    if other = key then (key, value) :: rest else (other, old) :: set key value rest

end Entries

end Sm83.Toml
