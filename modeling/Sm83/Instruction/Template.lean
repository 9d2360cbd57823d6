/-! # Templates of assembly text -/

namespace Sm83

/-- Text with at most one slot for an operand: what stands before the slot, and what stands
behind it if there is one. -/
structure Template where
  head : String
  tail : Option String
  deriving DecidableEq, Repr, Inhabited

namespace Template

/-- Text without a slot. -/
def fixed (text : String) : Template :=
  ⟨text, none⟩

/-- Text around a slot. -/
def around (head tail : String) : Template :=
  ⟨head, some tail⟩

/-- The mark for a slot in written templates. -/
def slot : String := "\x7b\x7d"

/-- The template as it is written, with its slot marked. -/
def text (template : Template) : String :=
  match template.tail with
  | none => template.head
  | some tail => template.head ++ slot ++ tail

/-- The template with its slot filled; without a slot the operand is not shown. -/
def fill (template : Template) (operand : String) : String :=
  match template.tail with
  | none => template.head
  | some tail => template.head ++ operand ++ tail

/-- Splits written text at the first mark for a slot. -/
def splitSlot : List Char → List Char × Option (List Char)
  | [] => ([], none)
  | c :: rest =>
    if c = '\x7b' ∧ rest.head? = some '\x7d' then ([], some rest.tail)
    else
      let (head, tail) := splitSlot rest
      (c :: head, tail)

/-- The template that a text writes. -/
def ofText (written : String) : Template :=
  let (head, tail) := splitSlot written.toList
  ⟨String.ofList head, tail.map String.ofList⟩

end Template

end Sm83
