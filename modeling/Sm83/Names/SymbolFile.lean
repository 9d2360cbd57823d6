import Sm83.Files.Fault
import Sm83.Names.Basic
import Sm83.Text.Blank
import Sm83.Text.Line

/-!
# Symbol files

A line gives a bank and an address, both hexadecimal and joined by a colon, and a name. What
follows a semicolon is a comment.
-/

namespace Sm83

/-- Why a symbol file is not accepted. -/
inductive SymbolError where
  /-- The file cannot be read. -/
  | unreadable (path : String) (fault : Files.Fault)
  /-- A line is no entry. -/
  | malformed (line : Nat) (text : String)
  /-- A line is about an address that has no region. -/
  | unsupported (line bank address : Nat)
  deriving DecidableEq, Repr

/-- The error in words. -/
def SymbolError.message : SymbolError → String
  | unreadable path fault => "failed to read " ++ path ++ ": " ++ fault.message
  | malformed line text =>
    "line " ++ toString line ++ ": malformed symbol entry '" ++ text ++ "'"
  | unsupported line bank address =>
    "line " ++ toString line ++ ": unsupported symbol address " ++ Text.hexWide 2 bank ++ ":" ++
      Text.hexWide 4 address

namespace SymbolFile

/-- One entry of a symbol file. -/
structure Entry where
  bank : Nat
  address : Nat
  name : String
  deriving DecidableEq, Repr

/-- The limit of bank numbers. -/
def bankLimit : Nat := UInt32.size

/-- The limit of addresses. -/
def addressLimit : Nat := UInt16.size

/-- A bank and an address joined by a colon. -/
def place? (text : List Char) : Option (Nat × Nat) := do
  let (bank, address) ← Text.cut? ':' text
  return (← Text.number? 16 bankLimit bank, ← Text.number? 16 addressLimit address)

/-- What a line says. -/
inductive Reading where
  /-- Nothing: the line is blank or a comment. -/
  | nothing
  /-- The line is an entry. -/
  | entry (entry : Entry)
  /-- The line is no entry. -/
  | malformed
  /-- The line is an entry for an address without a region. -/
  | unsupported (bank address : Nat)
  deriving DecidableEq, Repr

/-- Reads one line. -/
def readLine (line : List Char) : Reading :=
  match Text.fields (Text.before ';' line) with
  | [] => .nothing
  | [_] => .malformed
  | place :: name :: _ =>
    match place? place with
    | none => .malformed
    | some (bank, address) =>
      if (Region.ofAddress? address).isSome then .entry ⟨bank, address, String.ofList name⟩
      else .unsupported bank address

/-- Adds what the line of a number says. -/
def addLine (names : Names) : List Char × Nat → Except SymbolError Names
  | (line, number) =>
    match readLine line with
    | .nothing => .ok names
    | .entry entry => .ok (names.add .earlier entry.bank entry.address entry.name)
    | .malformed => .error (.malformed number (String.ofList line))
    | .unsupported bank address => .error (.unsupported number bank address)

end SymbolFile

namespace Names

/-- The names that the text of a symbol file gives; the first line that is not accepted is the
error. -/
def ofSymbols (text : String) : Except SymbolError Names :=
  ((Text.lines text.toList).zipIdx 1).foldlM SymbolFile.addLine empty

/-- The names in a symbol file, given what reading the file brought. -/
def ofSymbolFile (path : String) (content : Except Files.Fault ByteArray) :
    Except SymbolError Names :=
  match content.bind Files.text? with
  | .error fault => .error (.unreadable path fault)
  | .ok text => ofSymbols text

end Names

end Sm83
