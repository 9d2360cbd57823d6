import Sm83.Listing.Page
import Sm83.Sweep.Turn

/-!
# Runs

A run takes one turn after the other until the sweep ends or the bytes run out. A finished run has
a listing.
-/

namespace Sm83

/-- What a run has done: its steps, where it stands, and whether it came to its end. -/
structure Run where
  steps : Array Step
  cursor : Cursor
  finished : Bool

/-- Why there is no listing. -/
inductive SweepError where
  /-- An offset lies behind the last byte that is allowed. -/
  | outOfRange (offset limit : Nat)
  /-- The bytes ran out, at the offset of an item in a bank, before the run came to its end. -/
  | unterminated (offset bank : Nat)
  deriving DecidableEq, Repr

/-- The error in words. -/
def SweepError.message : SweepError → String
  | outOfRange offset limit =>
    "offset 0x" ++ Text.hex offset ++ " is outside the ROM (limit 0x" ++ Text.hex limit ++ ")"
  | unterminated offset bank =>
    "reached end of buffer without a defined stop at offset 0x" ++ Text.hex offset ++ " (bank 0x" ++
      Text.hex bank ++ ")"

/-- A finished run. -/
structure Listing where
  start : Nat
  /-- The offset at which the run was to stop. -/
  stop : Nat
  /-- The offset behind the last item. -/
  endOffset : Nat
  steps : Array Step
  labels : LabelMap

namespace Sweep

/-- Takes turns from a cursor on, behind the steps taken so far. -/
def runFrom (sweep : Sweep) (steps : Array Step) (cursor : Cursor) : Run :=
  match _h : sweep.turn cursor with
  | .short => ⟨steps, cursor, false⟩
  | .last step after => ⟨steps.push step, after, true⟩
  | .next step after => sweep.runFrom (steps.push step) after
  termination_by sweep.ceiling - cursor.offset
  decreasing_by
    have := turn_next_advances _h
    omega

/-- The cursor that a sweep starts with. -/
def first (sweep : Sweep) : Cursor :=
  ⟨sweep.start, false, .empty⟩

/-- The run of a sweep. -/
def run (sweep : Sweep) : Run :=
  sweep.runFrom #[] sweep.first

/-- The first reason not to start a sweep, if there is one. -/
def objection? (sweep : Sweep) : Option SweepError :=
  if sweep.ceiling ≤ sweep.start then some (.outOfRange sweep.start sweep.ceiling)
  else match sweep.options.stop with
    | some stop => if Bank.capacity < stop then some (.outOfRange stop Bank.capacity) else none
    | none => none

/-- The listing of a sweep. -/
def listing (sweep : Sweep) : Except SweepError Listing :=
  match sweep.objection? with
  | some error => .error error
  | none =>
    let run := sweep.run
    if run.finished then
      .ok ⟨sweep.start, sweep.stop, run.cursor.offset, run.steps, run.cursor.labels⟩
    else .error (.unterminated run.cursor.offset (Bank.ofOffset run.cursor.offset))

end Sweep

/-- The listing of an image from an offset on. -/
def disassemble (image : ByteArray) (names : Names) (start : Nat) (options : Options) :
    Except SweepError Listing :=
  (Sweep.mk image names start options).listing

namespace Listing

/-- The number of bytes that were passed. -/
def byteCount (listing : Listing) : Nat :=
  listing.endOffset - listing.start

/-- The lines of a listing. -/
def lines (listing : Listing) : List Line :=
  .header listing.start :: listing.steps.toList.flatMap Step.lines

/-- The text of a listing, laid out step by step. -/
def text (listing : Listing) (layout : Layout) : String :=
  let add := Page.add listing.labels layout
  let page := listing.steps.foldl (fun page step => step.lines.foldl add page)
    (add {} (.header listing.start))
  page.close layout listing.endOffset

/-- The text of a listing is its lines, rendered. -/
theorem text_eq_render (listing : Listing) (layout : Layout) :
    listing.text layout = render listing.lines listing.labels layout listing.endOffset := by
  simp only [text, render, lines, List.foldl_cons, List.foldl_flatMap, ← Array.foldl_toList]

end Listing

end Sm83
