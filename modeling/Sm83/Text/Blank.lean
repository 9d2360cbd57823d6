/-! # Blanks, trimming and fields -/

namespace Sm83.Text

/-- The characters with the Unicode property `White_Space`. -/
def isBlank (c : Char) : Bool :=
  let n := c.toNat
  (0x09 ≤ n && n ≤ 0x0d) || n == 0x20 || n == 0x85 || n == 0xa0 || n == 0x1680 ||
    (0x2000 ≤ n && n ≤ 0x200a) || n == 0x2028 || n == 0x2029 || n == 0x202f ||
    n == 0x205f || n == 0x3000

/-- A text without the blanks at its two ends. -/
def trim (text : List Char) : List Char :=
  ((text.dropWhile isBlank).reverse.dropWhile isBlank).reverse

/-- The maximal stretches of a text that hold no blank. -/
def fields (text : List Char) : List (List Char) :=
  (text.splitOnP isBlank).filter (fun field => !field.isEmpty)

theorem ne_nil_of_mem_fields {text field : List Char} (h : field ∈ fields text) :
    field ≠ [] := by
  intro empty
  simp [fields, empty] at h

end Sm83.Text
