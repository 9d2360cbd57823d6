import Sm83.Listing.Line

/-!
# Laying out a listing

Lines that show nothing leave no trace. Between two lines that show something stands one empty line
if a separator lies between them, however many there are.
-/

namespace Sm83

/-- A listing laid out so far. -/
structure Page where
  text : String := ""
  /-- Whether a line has been shown. -/
  begun : Bool := false
  /-- Whether a separator follows the last line that was shown. -/
  gap : Bool := false
  deriving DecidableEq, Repr

namespace Page

/-- What stands between the page and its next line. -/
def joint (page : Page) : String :=
  if page.begun then (if page.gap then "\n\n" else "\n") else ""

/-- The page with one more line that shows a text. -/
def append (page : Page) (text : String) : Page :=
  { text := page.text ++ page.joint ++ text, begun := true, gap := false }

/-- The page after one more line of the listing. -/
def add (labels : LabelMap) (layout : Layout) (page : Page) (line : Line) : Page :=
  if line = .separator then { page with gap := true }
  else match line.text? labels layout with
    | none => page
    | some text => page.append text

/-- The finished text of a page, for a listing that ends at an offset. -/
def close (page : Page) (layout : Layout) (endOffset : Nat) : String :=
  page.text ++ "\n" ++ (if layout.showEnd then "; 0x" ++ Text.hex endOffset else "")

end Page

/-- The text of a listing. -/
def render (lines : List Line) (labels : LabelMap) (layout : Layout) (endOffset : Nat) : String :=
  (lines.foldl (Page.add labels layout) {}).close layout endOffset

end Sm83
