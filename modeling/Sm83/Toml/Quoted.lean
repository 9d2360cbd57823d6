import Sm83.Text.Numeral

/-!
# Quoted strings

Each reader gets the text behind the opening quotes and leaves the text behind the closing ones.
-/

namespace Sm83.Toml

/-- A reader takes something off the start of a text and leaves the rest. -/
abbrev Reader (α : Type) := List Char → Option (α × List Char)

namespace Quoted

/-- The characters that may stand in a string as they are: all but control characters. -/
def isPlain (c : Char) : Bool :=
  c == '\t' || (0x20 ≤ c.toNat && c.toNat != 0x7f)

/-- The character with a number written in hexadecimal digits. -/
def numbered? (digits : List Char) : Option Char := do
  let n ← Text.digits? 16 digits
  if n < 0xd800 ∨ (0xdfff < n ∧ n < 0x110000) then some (Char.ofNat n) else none

/-- The character with a number in hexadecimal digits, of which a given number stands at the start
of a text, and the length of the escape they belong to. -/
def numberedEscape? (count : Nat) (text : List Char) : Option (Char × Nat) := do
  let digits := text.take count
  if digits.length = count then return (← numbered? digits, count + 1) else none

/-- The character of an escape, given the text behind its backslash, and the length of the escape
without it. -/
def escape? : List Char → Option (Char × Nat)
  | 'b' :: _ => some ('\x08', 1)
  | 't' :: _ => some ('\t', 1)
  | 'n' :: _ => some ('\n', 1)
  | 'f' :: _ => some ('\x0c', 1)
  | 'r' :: _ => some ('\r', 1)
  | 'e' :: _ => some ('\x1b', 1)
  | '"' :: _ => some ('"', 1)
  | '\\' :: _ => some ('\\', 1)
  | 'x' :: rest => numberedEscape? 2 rest
  | 'u' :: rest => numberedEscape? 4 rest
  | 'U' :: rest => numberedEscape? 8 rest
  | _ => none

/-- A basic string on one line, behind the characters read so far in reverse. -/
def basic (read : List Char) (text : List Char) : Option (List Char × List Char) :=
  match text with
  | [] => none
  | '"' :: rest => some (read.reverse, rest)
  | '\\' :: rest =>
    match escape? rest with
    | none => none
    | some (c, length) => basic (c :: read) (rest.drop length)
  | c :: rest => if isPlain c then basic (c :: read) rest else none
  termination_by text.length
  decreasing_by all_goals simp only [List.length_drop, List.length_cons]; omega

/-- A literal string on one line. -/
def literal : Reader (List Char) := fun text =>
  let body := text.takeWhile (· != '\'')
  match text.drop body.length with
  | _ :: rest => if body.all isPlain then some (body, rest) else none
  | [] => none

/-- The number of quotes at the start of a text, up to five: a string of several lines may end with
two quotes of its own before the three that close it. -/
def quoteRun (quote : Char) (text : List Char) : Nat :=
  ((text.take 5).takeWhile (· == quote)).length

/-- The length of the line end at the start of a text, zero if there is none. -/
def lineEndLength : List Char → Nat
  | '\n' :: _ => 1
  | '\r' :: '\n' :: _ => 2
  | _ => 0

/-- The length of the blanks and line ends at the start of a text. -/
def gapLength : List Char → Nat
  | ' ' :: rest => gapLength rest + 1
  | '\t' :: rest => gapLength rest + 1
  | '\n' :: rest => gapLength rest + 1
  | '\r' :: '\n' :: rest => gapLength rest + 2
  | _ => 0

/-- The length of a line end in a string of several lines that a backslash hides, together with the
blanks and line ends behind it; zero if the backslash hides none. -/
def hiddenLength (text : List Char) : Nat :=
  if lineEndLength (text.dropWhile fun c => c == ' ' || c == '\t') = 0 then 0 else gapLength text

/-- The rest of a string of several lines, behind the characters read so far in reverse. Escapes
count only in basic strings. -/
def lines (escapes : Bool) (quote : Char) (read : List Char) (text : List Char) :
    Option (List Char × List Char) :=
  match text with
  | [] => none
  | c :: rest =>
    if c = quote then
      let run := quoteRun quote text
      if 3 ≤ run then
        some (read.reverse ++ List.replicate (run - 3) quote, text.drop run)
      else lines escapes quote (c :: read) rest
    else if escapes ∧ c = '\\' then
      let hidden := hiddenLength rest
      if hidden = 0 then
        match escape? rest with
        | none => none
        | some (e, length) => lines escapes quote (e :: read) (rest.drop length)
      else lines escapes quote read (rest.drop hidden)
    else if isPlain c ∨ lineEndLength text ≠ 0 then
      lines escapes quote (c :: read) rest
    else none
  termination_by text.length
  decreasing_by
    all_goals simp_all only [List.length_drop, List.length_cons]; omega

/-- A string of several lines; a line end right behind the opening quotes does not count. -/
def multiline (escapes : Bool) (quote : Char) : Reader (List Char) := fun text =>
  lines escapes quote [] (text.drop (lineEndLength text))

/-- A string on one line, basic or literal. -/
def single : Reader (List Char)
  | '"' :: rest => basic [] rest
  | '\'' :: rest => literal rest
  | _ => none

/-- A string in any of its four forms. -/
def any : Reader (List Char)
  | '"' :: '"' :: '"' :: rest => multiline true '"' rest
  | '\'' :: '\'' :: '\'' :: rest => multiline false '\'' rest
  | text => single text

end Quoted

end Sm83.Toml
