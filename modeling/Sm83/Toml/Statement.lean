import Sm83.Toml.Scalar
import Sm83.Toml.Table

/-!
# Statements

A document is a list of statements, each on a line of its own: headers of tables and entries.
Values may span lines, and so may the entries of a table in braces.
-/

namespace Sm83.Toml

/-- One statement of a document. -/
inductive Statement where
  /-- The header of a table, or of one more table of an array. -/
  | header (repeated : Bool) (key : Key)
  /-- An entry of the table whose header came last. -/
  | entry (key : Key) (value : Value)

namespace Statement

/-- The text behind blanks. -/
def skipBlanks (text : List Char) : List Char :=
  text.dropWhile fun c => c == ' ' || c == '\t'

/-- The text behind blanks, line ends and comments, unless one of them holds a control character.
The flag tells whether the text starts within a comment. -/
def skipLayout : Bool → List Char → Option (List Char)
  | _, [] => some []
  | inComment, c :: rest =>
    if c = '\n' then skipLayout false rest
    else if c = '\r' then
      if rest.head? = some '\n' then skipLayout inComment rest else none
    else if inComment then
      if Quoted.isPlain c then skipLayout true rest else none
    else if c = ' ' ∨ c = '\t' then skipLayout false rest
    else if c = '#' then skipLayout true rest
    else some (c :: rest)

/-- The characters of a key that is not quoted. -/
def isBare (c : Char) : Bool :=
  c.isAlphanum || c == '_' || c == '-'

/-- One part of a key. -/
def keyPart : Reader String := fun text =>
  match text with
  | '"' :: _ | '\'' :: _ => (Quoted.single text).map fun (part, rest) => (String.ofList part, rest)
  | _ =>
    let part := text.takeWhile isBare
    if part.isEmpty then none else some (String.ofList part, text.drop part.length)

/-- How deep values may be nested, and how many parts a key may have. -/
def depthLimit : Nat := 80

/-- The parts of a key, joined by dots; at most as many as the first argument tells. -/
def keyParts : Nat → Reader (List String)
  | 0, _ => none
  | fuel + 1, text => do
    let (part, rest) ← keyPart (skipBlanks text)
    match skipBlanks rest with
    | '.' :: rest =>
      let (parts, rest) ← keyParts fuel rest
      return (part :: parts, rest)
    | rest => return ([part], rest)

/-- A key, with the blanks around it. -/
def key : Reader Key := fun text => do
  let (parts, rest) ← keyParts depthLimit text
  return (⟨parts.dropLast, ← parts.getLast?⟩, rest)

/-- Items up to a closing character, with commas between them and maybe behind the last one; at
most as many as the first argument tells. -/
def items {α : Type} (item : Reader α) (closing : Char) : Nat → Reader (List α)
  | 0, _ => none
  | fuel + 1, text => do
    match ← skipLayout false text with
    | [] => none
    | c :: rest =>
      if c = closing then return ([], rest)
      let (first, rest) ← item (c :: rest)
      match ← skipLayout false rest with
      | [] => none
      | c :: rest =>
        if c = closing then return ([first], rest)
        else if c = ',' then
          let (more, rest) ← items item closing fuel rest
          return (first :: more, rest)
        else none

/-- A key and a value with an equals sign between them; the first argument passes over what may
stand on either side of the sign. -/
def assignment (skip : List Char → Option (List Char)) (value : Reader Value) :
    Reader (Key × Value) := fun text => do
  let (key, rest) ← key text
  match ← skip rest with
  | '=' :: rest =>
    let (value, rest) ← value (← skip rest)
    return ((key, value), rest)
  | _ => none

/-- A value with at most a given number of brackets and braces around each of its parts. -/
def value : Nat → Reader Value
  | depth, text =>
    match text, depth with
    | '[' :: rest, depth + 1 => do
      let (values, rest) ← items (value depth) ']' (rest.length + 1) rest
      return (.array values, rest)
    | '{' :: rest, depth + 1 => do
      let entry := assignment (skipLayout false) (value depth)
      let (entries, rest) ← items entry '}' (rest.length + 1) rest
      return (.table .inline (← Entries.ofList? entries), rest)
    | '[' :: _, 0 | '{' :: _, 0 => none
    | '"' :: _, _ | '\'' :: _, _ =>
      (Quoted.any text).map fun (body, rest) => (.string (String.ofList body), rest)
    | _, _ => Scalar.reader text

/-- One statement, without the line end behind it. -/
def one : Reader Statement
  | '[' :: '[' :: rest => do
    match ← key rest with
    | (key, ']' :: ']' :: rest) => return (.header true key, rest)
    | _ => none
  | '[' :: rest => do
    match ← key rest with
    | (key, ']' :: rest) => return (.header false key, rest)
    | _ => none
  | text => do
    let ((key, value), rest) ← assignment (some ∘ skipBlanks) (value depthLimit) text
    return (.entry key value, rest)

/-- The text behind the end of a line, which a comment may come before; the end of the text ends a
line too. -/
def endLine (text : List Char) : Option (List Char) :=
  let text := skipBlanks text
  let comment := if text.head? = some '#' then text.takeWhile Quoted.isPlain else []
  match text.drop comment.length with
  | [] => some []
  | '\n' :: rest => some rest
  | '\r' :: '\n' :: rest => some rest
  | _ => none

/-- The statements of a text; at most as many as the first argument tells. -/
def all : Nat → List Char → Option (List Statement)
  | 0, _ => none
  | fuel + 1, text => do
    match ← skipLayout false text with
    | [] => return []
    | text =>
      let (statement, rest) ← one text
      return statement :: (← all fuel (← endLine rest))

end Statement

end Sm83.Toml
