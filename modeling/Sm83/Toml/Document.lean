import Sm83.Toml.Statement

/-! # Documents -/

namespace Sm83.Toml

/-- The part of a document under one header. -/
structure Section where
  repeated : Bool
  key : Key
  entries : List (Key × Value)

/-- Splits statements into the entries before the first header and the sections behind it. -/
def sections : List Statement → List (Key × Value) × List Section
  | [] => ([], [])
  | .entry key value :: rest =>
    let (entries, parts) := sections rest
    ((key, value) :: entries, parts)
  | .header repeated key :: rest =>
    let (entries, parts) := sections rest
    ([], ⟨repeated, key, entries⟩ :: parts)

/-- Puts the table of a section among the entries of the table that its header leads to. -/
def Section.place (part : Section) (_ : Origin) (entries : Entries) : Option Entries :=
  let filled (start : Entries) : Option Entries := part.entries.foldlM Entries.add? start
  let name := part.key.name
  match part.repeated, entries.lookup name with
  | false, none => do return entries.set name (.table .header (← filled []))
  | false, some (.table .implied inner) => do
    return entries.set name (.table .header (← filled inner))
  | true, none => do return entries.set name (.tables [← filled []])
  | true, some (.tables elements) => do
    return entries.set name (.tables ((← filled []) :: elements))
  | _, _ => none

/-- Adds a section to a document. -/
def addSection (document : Entries) (part : Section) : Option Entries :=
  descend .implied part.place .header part.key.path document

/-- The text behind a byte order mark. -/
def skipMark : List Char → List Char
  | '\uFEFF' :: rest => rest
  | text => text

/-- The entries of the document that a text writes. -/
def parse? (text : String) : Option Entries := do
  let chars := skipMark text.toList
  let (entries, parts) := sections (← Statement.all (chars.length + 1) chars)
  parts.foldlM addSection (← Entries.ofList? entries)

end Sm83.Toml
