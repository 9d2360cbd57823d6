import Sm83.Names.Basic
import Sm83.Text.Blank
import Sm83.Text.Line
import Sm83.Text.Numeral

/-!
# Positions on a cartridge

A position is written as a bank and an address joined by a colon, as a name on the cartridge, or as
a flat offset, and is tried in this order. All numbers are hexadecimal.
-/

namespace Sm83

/-- Why a text is no position. -/
inductive PositionError where
  /-- The text is blank. -/
  | empty
  /-- The text is in none of the three forms. -/
  | unparsable (text : String)
  /-- The position lies behind the last bank. -/
  | outOfRange (offset : Nat)
  deriving DecidableEq, Repr

/-- The error in words. -/
def PositionError.message : PositionError → String
  | empty => "empty location"
  | unparsable text =>
    "'" ++ text ++ "' is neither a bank:address pair, a known symbol, nor a hex offset"
  | outOfRange offset =>
    "location 0x" ++ Text.hex offset ++ " is outside the ROM address space"

namespace Position

/-- The limit of the numbers in a position. -/
def numberLimit : Nat := UInt32.size

/-- The digits of a number that `0x`, `0X` or `$` may lead. -/
def digitsOf : List Char → List Char
  | '0' :: 'x' :: digits => digits
  | '0' :: 'X' :: digits => digits
  | '$' :: digits => digits
  | digits => digits

/-- A hexadecimal number with blanks around it. -/
def number? (text : List Char) : Option Nat :=
  Text.number? 16 numberLimit (digitsOf (Text.trim text))

/-- The offset that a text without blanks around it writes, wherever that lies. -/
def offset? (names : Names) (text : List Char) : Option Nat :=
  match Text.cut? ':' text with
  | some (bank, address) => do
    let bank ← number? bank
    let address ← number? address
    return bank * Bank.size + address % Bank.size
  | none => names.offset? (String.ofList text) <|> number? text

/-- The offset on a cartridge that a text writes. -/
def resolve (names : Names) (text : String) : Except PositionError Nat :=
  let trimmed := Text.trim text.toList
  if trimmed.isEmpty then .error .empty
  else match offset? names trimmed with
    | none => .error (.unparsable (String.ofList trimmed))
    | some offset =>
      if offset < Bank.capacity then .ok offset
      else .error (.outOfRange (min offset (numberLimit - 1)))

end Position

end Sm83
