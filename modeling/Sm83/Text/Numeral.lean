/-! # Numerals in a radix up to sixteen -/

namespace Sm83.Text

/-- The value of an ASCII digit; the letters `a` to `f` of either case are the digits ten to
fifteen. -/
def digitValue? (c : Char) : Option Nat :=
  let n := c.toNat
  if 0x30 ≤ n ∧ n ≤ 0x39 then some (n - 0x30)
  else if 0x61 ≤ n ∧ n ≤ 0x66 then some (n - 0x57)
  else if 0x41 ≤ n ∧ n ≤ 0x46 then some (n - 0x37)
  else none

/-- One more digit behind a number read so far. -/
def appendDigit? (radix : Nat) (value : Nat) (c : Char) : Option Nat :=
  match digitValue? c with
  | some digit => if digit < radix then some (value * radix + digit) else none
  | none => none

/-- The number that a text of digits writes; the empty text writes none. -/
def digits? (radix : Nat) (text : List Char) : Option Nat :=
  if text.isEmpty then none else text.foldlM (appendDigit? radix) 0

/-- A text without the plus sign that may lead a number. -/
def dropPlus : List Char → List Char
  | '+' :: rest => rest
  | text => text

/-- The number below `limit` that a text writes: at most one plus sign, then at least one digit
and nothing else. -/
def number? (radix limit : Nat) (text : List Char) : Option Nat :=
  (digits? radix (dropPlus text)).filter (· < limit)

/-- A number in lower-case hexadecimal, without leading zeros. -/
def hex (n : Nat) : String :=
  String.ofList (Nat.toDigits 16 n)

/-- A number in lower-case hexadecimal, with leading zeros up to a width. -/
def hexWide (width n : Nat) : String :=
  let digits := Nat.toDigits 16 n
  String.ofList (List.replicate (width - digits.length) '0' ++ digits)

end Sm83.Text
