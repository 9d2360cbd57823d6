import Sm83.Toml.Quoted
import Sm83.Toml.Value

/-! # Numbers, times and truth values -/

namespace Sm83.Toml.Scalar

/-- Whether a text consists of groups of digits, joined by single underscores. -/
def isDigits (radix : Nat) (text : List Char) : Bool :=
  (text.splitOn '_').all fun group => (Text.digits? radix group).isSome

/-- The value of groups of digits, joined by single underscores. -/
def digits? (radix : Nat) (text : List Char) : Option Nat :=
  if isDigits radix text then Text.digits? radix (text.filter (· != '_')) else none

/-- Whether a text is a decimal number without needless zeros in front. -/
def isWhole (text : List Char) : Bool :=
  isDigits 10 text && (text.head? != some '0' || text.length == 1)

/-- A text without the sign in front, and whether that was a minus sign. -/
def dropSign : List Char → Bool × List Char
  | '-' :: rest => (true, rest)
  | '+' :: rest => (false, rest)
  | text => (false, text)

/-- An integer: decimal with or without a sign, or hexadecimal, octal or binary. -/
def integer? : List Char → Option Int
  | '0' :: 'x' :: rest => (digits? 16 rest).map Int.ofNat
  | '0' :: 'o' :: rest => (digits? 8 rest).map Int.ofNat
  | '0' :: 'b' :: rest => (digits? 2 rest).map Int.ofNat
  | text =>
    let (negative, rest) := dropSign text
    if isWhole rest then
      (digits? 10 rest).map fun n => if negative then -(n : Int) else n
    else none

/-- Whether a text is an exponent, without its mark. -/
def isExponent (text : List Char) : Bool :=
  isDigits 10 (dropSign text).2

/-- Whether a text is a number with a fraction, an exponent or both, or no finite number. -/
def isFloat (text : List Char) : Bool :=
  let rest := (dropSign text).2
  let isMark (c : Char) : Bool := c == 'e' || c == 'E'
  let mantissa := rest.takeWhile fun c => !isMark c
  let exponent := rest.drop mantissa.length
  let whole := mantissa.takeWhile (· != '.')
  let fraction := mantissa.drop whole.length
  rest == "inf".toList || rest == "nan".toList ||
    (isWhole whole && (fraction.isEmpty || isDigits 10 fraction.tail) &&
      (exponent.isEmpty || isExponent exponent.tail) && !(fraction.isEmpty && exponent.isEmpty))

/-- The value of a number of digits, if there are just so many. -/
def fixed? (count : Nat) (text : List Char) : Option Nat :=
  if text.length = count then Text.digits? 10 text else none

/-- The number of days of a month. -/
def daysIn (year month : Nat) : Nat :=
  if month = 2 then
    if year % 4 = 0 ∧ (year % 100 ≠ 0 ∨ year % 400 = 0) then 29 else 28
  else if month = 4 ∨ month = 6 ∨ month = 9 ∨ month = 11 then 30
  else 31

/-- Whether a text is a day of a year. -/
def isDate (text : List Char) : Bool :=
  match text.splitOn '-' with
  | [year, month, day] =>
    match fixed? 4 year, fixed? 2 month, fixed? 2 day with
    | some year, some month, some day =>
      decide (1 ≤ month ∧ month ≤ 12 ∧ 1 ≤ day ∧ day ≤ daysIn year month)
    | _, _, _ => false
  | _ => false

/-- Whether a text is a number below a limit, in two digits. -/
def isBelow (limit : Nat) (text : List Char) : Bool :=
  (fixed? 2 text).any (· < limit)

/-- Whether a text is a second, maybe with a fraction. -/
def isSecond (text : List Char) : Bool :=
  match text.splitOn '.' with
  | [second] => isBelow 61 second
  | [second, fraction] => isBelow 61 second && (Text.digits? 10 fraction).isSome
  | _ => false

/-- Whether a text is a time of day. -/
def isClock (text : List Char) : Bool :=
  match text.splitOn ':' with
  | [hour, minute] => isBelow 24 hour && isBelow 60 minute
  | [hour, minute, second] => isBelow 24 hour && isBelow 60 minute && isSecond second
  | _ => false

/-- Whether a text is a distance from universal time, in hours and minutes. -/
def isZone (text : List Char) : Bool :=
  match text.splitOn ':' with
  | [hour, minute] => isBelow 24 hour && isBelow 60 minute
  | _ => false

/-- Whether a text is a time of day, maybe with its distance from universal time. -/
def isZonedClock (text : List Char) : Bool :=
  let clock := text.takeWhile fun c => c.isDigit || c == ':' || c == '.'
  isClock clock && match text.drop clock.length with
    | [] => true
    | [z] => z == 'Z' || z == 'z'
    | sign :: zone => (sign == '+' || sign == '-') && isZone zone

/-- Whether a text is a day, a time of day or both. -/
def isTime (text : List Char) : Bool :=
  isClock text || isDate text ||
    (isDate (text.take 10) && match text.drop 10 with
      | mark :: clock => (mark == 'T' || mark == 't' || mark == ' ') && isZonedClock clock
      | [] => false)

/-- The characters of a value that is not quoted. -/
def isBare (c : Char) : Bool :=
  c.isAlphanum || c == '+' || c == '-' || c == '_' || c == '.' || c == ':'

/-- The length of the value at the start of a text; a space may stand between a day and a time. -/
def length (text : List Char) : Nat :=
  let word := text.takeWhile isBare
  match text.drop word.length with
  | ' ' :: c :: rest =>
    if isDate word && c.isDigit then word.length + 1 + ((c :: rest).takeWhile isBare).length
    else word.length
  | _ => word.length

/-- The value that a whole text writes. -/
def value? (text : List Char) : Option Value :=
  if text = "true".toList then some (.boolean true)
  else if text = "false".toList then some (.boolean false)
  else match integer? text with
    | some value => some (.integer value)
    | none =>
      if isFloat text then some (.float (String.ofList text))
      else if isTime text then some (.time (String.ofList text))
      else none

/-- A value that is not quoted. -/
def reader : Reader Value := fun text => do
  let size := length text
  return (← value? (text.take size), text.drop size)

end Sm83.Toml.Scalar
