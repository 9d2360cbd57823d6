/-! # Lines and cuts -/

namespace Sm83.Text

/-- A line without the carriage return at its end, if it has one. -/
def dropReturn (line : List Char) : List Char :=
  if line.getLast? = some '\r' then line.dropLast else line

/-- The lines of a text. A line feed ends a line, together with a carriage return right before
it; what follows the last line feed is a line only if it is not empty, and is kept as it is. -/
def lines (text : List Char) : List (List Char) :=
  let pieces := text.splitOn '\n'
  pieces.dropLast.map dropReturn ++ (pieces.getLast?.filter (fun line => !line.isEmpty)).toList

theorem lines_nil : lines [] = [] := by
  simp [lines, List.splitOn]

/-- The text before the first occurrence of a character, or all of it. -/
def before (mark : Char) (text : List Char) : List Char :=
  text.takeWhile (· != mark)

/-- The two parts of a text around the first occurrence of a character. -/
def cut? (mark : Char) (text : List Char) : Option (List Char × List Char) :=
  match text.dropWhile (· != mark) with
  | [] => none
  | _ :: rest => some (before mark text, rest)

theorem cut?_eq_none_iff {mark : Char} {text : List Char} :
    cut? mark text = none ↔ mark ∉ text := by
  induction text with
  | nil => simp [cut?]
  | cons c rest ih =>
    by_cases h : c = mark
    · simp [cut?, h]
    · have h' : mark ≠ c := fun e => h e.symm
      simp only [cut?, List.dropWhile_cons, bne_iff_ne, ne_eq, h, not_false_eq_true, if_true,
        List.mem_cons, h', false_or] at ih ⊢
      rw [← ih]
      split <;> simp

end Sm83.Text
