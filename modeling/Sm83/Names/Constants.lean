import Sm83.Names.SymbolFile

/-!
# Files of constants

A line `NAME EQU value`, which may start with the word `DEF`, gives a name to a value. The two
words may be written in either case, and what follows a semicolon is a comment.
-/

namespace Sm83

namespace Constants

/-- Whether a field is a word, in either case of its ASCII letters. -/
def isWord (word : String) (field : List Char) : Bool :=
  field.map Char.toLower == word.toList

/-- The limit of the values of number literals. -/
def valueLimit : Nat := UInt32.size

/-- The value of a number literal: `$` or `0x` leads hexadecimal, `%` binary and `&` octal digits;
all others are decimal. Blanks around it and underscores count for nothing. -/
def literal? (text : List Char) : Option Nat :=
  match (Text.trim text).filter (· != '_') with
  | '$' :: digits => Text.number? 16 valueLimit digits
  | '0' :: 'x' :: digits => Text.number? 16 valueLimit digits
  | '0' :: 'X' :: digits => Text.number? 16 valueLimit digits
  | '%' :: digits => Text.number? 2 valueLimit digits
  | '&' :: digits => Text.number? 8 valueLimit digits
  | digits => Text.number? 10 valueLimit digits

/-- The name and the fields of the value in a definition; the value has at least one field. -/
def definition? : List (List Char) → Option (List Char × List (List Char))
  | name :: equ :: field :: more =>
    if isWord "equ" equ then some (name, field :: more) else none
  | _ => none

/-- Splits a line into a name and the text of its value, with single spaces between the fields of
the value. -/
def split? (line : List Char) : Option (List Char × List Char) :=
  let parts := match Text.fields (Text.before ';' line) with
    | word :: rest => if isWord "def" word then rest else word :: rest
    | [] => []
  (definition? parts).map fun (name, value) => (name, [' '].intercalate value)

/-- What a line says. -/
inductive Reading where
  /-- The line defines nothing. -/
  | nothing
  /-- The line gives a name to a number. -/
  | constant (name : String) (value : Nat)
  /-- The line gives a name to something that is not a number. -/
  | unevaluated
  deriving DecidableEq, Repr

/-- Reads one line. -/
def readLine (line : List Char) : Reading :=
  match split? line with
  | none => .nothing
  | some (name, value) =>
    match literal? value with
    | none => .unevaluated
    | some value => .constant (String.ofList name) value

/-- The address that a reading names in a region, if it does, with its name. -/
def Reading.inRegion? (region : Region) : Reading → Option (String × Nat)
  | .constant name value =>
    if value < SymbolFile.addressLimit ∧ Region.ofAddress? value = some region then
      some (name, value)
    else none
  | .nothing | .unevaluated => none

/-- The constants of a text whose values are addresses in a region, in their order. -/
def inRegion (region : Region) (text : String) : List (String × Nat) :=
  (Text.lines text.toList).filterMap fun line => (readLine line).inRegion? region

/-- A definition that was passed over because its value is not a number. -/
structure Warning where
  line : Nat
  text : String
  deriving DecidableEq, Repr

/-- The warning in words. -/
def Warning.message (warning : Warning) : String :=
  "line " ++ toString warning.line ++ ": cannot evaluate constant '" ++ warning.text ++
    "', skipping"

/-- Names together with what came of adding constants to them. -/
structure Merged where
  names : Names
  /-- The number of constants that were added. -/
  added : Nat := 0
  warnings : Array Warning := #[]

/-- Adds what the line of a number says about a region. -/
def addLine (region : Region) (merged : Merged) : List Char × Nat → Merged
  | (line, number) =>
    match (readLine line).inRegion? region with
    | some (name, address) =>
      { merged with
        names := merged.names.add .later 0 address name
        added := merged.added + 1 }
    | none =>
      if readLine line = .unevaluated then
        let warning := ⟨number, String.ofList (Text.trim line)⟩
        { merged with warnings := merged.warnings.push warning }
      else merged

end Constants

namespace Names

/-- Adds the constants of a text that lie in a region; later ones replace earlier ones. -/
def addConstants (names : Names) (region : Region) (text : String) : Constants.Merged :=
  ((Text.lines text.toList).zipIdx 1).foldl (Constants.addLine region) { names := names }

/-- Adds the constants in a file, given what reading the file brought. -/
def addConstantsFile (names : Names) (path : String) (region : Region)
    (content : Except Files.Fault ByteArray) : Except SymbolError Constants.Merged :=
  match content.bind Files.text? with
  | .error fault => .error (.unreadable path fault)
  | .ok text => .ok (names.addConstants region text)

end Names

/-! ## What adding constants comes to -/

namespace Constants

theorem addLine_of_none {region : Region} {line : List Char} (merged : Merged) (number : Nat)
    (h : (readLine line).inRegion? region = none) :
    (addLine region merged (line, number)).names = merged.names ∧
      (addLine region merged (line, number)).added = merged.added := by
  unfold addLine
  simp only [h]
  split <;> exact ⟨rfl, rfl⟩

theorem addLine_of_some {region : Region} {line : List Char} {name : String} {address : Nat}
    (merged : Merged) (number : Nat)
    (h : (readLine line).inRegion? region = some (name, address)) :
    (addLine region merged (line, number)).names = merged.names.add .later 0 address name ∧
      (addLine region merged (line, number)).added = merged.added + 1 := by
  unfold addLine
  simp only [h, and_self]

theorem foldl_addLine (region : Region) (lines : List (List Char)) (start : Nat)
    (merged : Merged) :
    let entries := lines.filterMap fun line => (readLine line).inRegion? region
    let result := (lines.zipIdx start).foldl (addLine region) merged
    result.names = entries.foldl
        (fun names (name, address) => names.add .later 0 address name) merged.names ∧
      result.added = merged.added + entries.length := by
  induction lines generalizing start merged with
  | nil => exact ⟨rfl, rfl⟩
  | cons line lines ih =>
    have rest := ih (start + 1) (addLine region merged (line, start))
    simp only [List.zipIdx_cons, List.foldl_cons, List.filterMap_cons] at rest ⊢
    rw [rest.1, rest.2]
    cases h : (readLine line).inRegion? region with
    | none =>
      have step := addLine_of_none merged start h
      exact ⟨by rw [step.1], by rw [step.2]⟩
    | some entry =>
      have step := addLine_of_some merged start h
      refine ⟨by rw [step.1]; rfl, ?_⟩
      rw [step.2, List.length_cons]
      omega

end Constants

namespace Names

/-- Adding the constants of a text adds those in the region one by one. -/
theorem names_addConstants (names : Names) (region : Region) (text : String) :
    (names.addConstants region text).names = (Constants.inRegion region text).foldl
      (fun names (name, address) => names.add .later 0 address name) names :=
  (Constants.foldl_addLine region (Text.lines text.toList) 1 { names := names }).1

/-- Every constant in the region is counted. -/
theorem added_addConstants (names : Names) (region : Region) (text : String) :
    (names.addConstants region text).added = (Constants.inRegion region text).length := by
  have h := (Constants.foldl_addLine region (Text.lines text.toList) 1 { names := names }).2
  exact h.trans (Nat.zero_add _)

end Names

end Sm83
