import Sm83.Sweep.Reference

/-!
# One turn of a sweep

A turn passes the definitions at its address and one item, and decides how the sweep goes on.
-/

namespace Sm83.Sweep

/-- The code label of an offset that is reached before anything refers to it. -/
def passedCodeLabel (offset : Nat) : Label :=
  { kind := .code
    address := Bank.localAddress offset
    name := LabelKind.code.nameAt offset
    usage := 0
    defined := true }

/-- The data label of an offset that is reached before anything refers to it. -/
def passedDataLabel (offset : Nat) : Label :=
  dataLabel (Bank.localAddress offset) offset true

/-- Sees to it that the address of an offset has a label of each kind. A code label that is known
takes the address from the data label. The second part tells whether a label was known that the
definitions are shown for. -/
def prepare (sweep : Sweep) (labels : LabelMap) (offset : Nat) : LabelMap × Bool :=
  let address := Bank.localAddress offset
  if labels.contains .code address then
    let labels :=
      if labels.contains .data address then labels.silence address
      else labels.insert (passedDataLabel offset)
    (labels.reference .code address, true)
  else if sweep.options.allowData && labels.contains .data address then
    ((labels.reference .data address).insert (passedCodeLabel offset), true)
  else
    ((labels.insert (passedDataLabel offset)).insert (passedCodeLabel offset), false)

/-- Passes the definitions at an offset. -/
def announce (sweep : Sweep) (labels : LabelMap) (offset : Nat) : LabelMap × Bool :=
  let address := Bank.localAddress offset
  let (labels, known) := sweep.prepare labels offset
  ((labels.define .code address).define .data address, known)

/-- Takes the item at an offset: a byte of data, which a code label behind it ends, or an
instruction. Without an item the bytes ran out. -/
def take? (sweep : Sweep) (labels : LabelMap) (offset : Nat) (inData : Bool) :
    Option (Item × Cursor) :=
  if inData then do
    let value ← sweep.byte? offset
    let ended := labels.contains .code (Bank.localAddress (offset + 1))
    return (.data value, ⟨offset + 1, !ended, labels⟩)
  else do
    let instruction ← Instruction.decode? sweep.byte? offset
    let (argument, labels) := sweep.refer labels offset instruction
    return (.code instruction argument, ⟨offset + instruction.size, false, labels⟩)

/-- How a sweep goes on behind an item. -/
inductive Onward where
  /-- The sweep is at its end. -/
  | stop
  /-- The next turn follows at once. -/
  | proceed
  /-- Control flow ended or data goes on; the next byte is data if the field says so. -/
  | pause (inData : Bool)
  deriving DecidableEq, Repr

/-- Whether data starts or goes on at a cursor: something loads its address, nothing is known to
jump there, and some data is still missing. -/
def entersData (sweep : Sweep) (cursor : Cursor) : Bool :=
  let address := Bank.localAddress cursor.offset
  sweep.options.allowData && !cursor.labels.contains .code address &&
    cursor.labels.contains .data address && !cursor.labels.allDefined .data

/-- Whether a sweep may end where control flow does: the stop is passed, if one was given, and so
are all code labels. -/
def mayEnd (sweep : Sweep) (cursor : Cursor) : Bool :=
  (decide (sweep.stop ≤ cursor.offset) || sweep.options.stop.isNone) &&
    cursor.labels.allDefined .code

/-- Decides how to go on at a cursor behind an item. -/
def onward (sweep : Sweep) (item : Item) (cursor : Cursor) : Onward :=
  if sweep.options.hardStop && decide (sweep.stop ≤ cursor.offset) then .stop
  else if Opcode.endsFlow item.firstByte || cursor.inData then
    if sweep.entersData cursor then .pause true
    else if sweep.mayEnd cursor then .stop
    else .pause cursor.inData
  else .proceed

/-- What a turn comes to. -/
inductive Turn where
  /-- The bytes ran out before the item was complete. -/
  | short
  /-- The sweep goes on. -/
  | next (step : Step) (cursor : Cursor)
  /-- The sweep ends behind the step. -/
  | last (step : Step) (cursor : Cursor)

/-- One turn of a sweep. -/
def turn (sweep : Sweep) (cursor : Cursor) : Turn :=
  let (labels, known) := sweep.announce cursor.labels cursor.offset
  match sweep.take? labels cursor.offset cursor.inData with
  | none => .short
  | some (item, after) =>
    match sweep.onward item after with
    | .stop => .last ⟨cursor.offset, item, known, false⟩ after
    | .proceed => .next ⟨cursor.offset, item, known, false⟩ after
    | .pause inData =>
      .next ⟨cursor.offset, item, known, !cursor.inData⟩ { after with inData := inData }

/-! ## Progress -/

theorem take?_advances {sweep : Sweep} {labels : LabelMap} {offset : Nat} {inData : Bool}
    {item : Item} {after : Cursor} (h : sweep.take? labels offset inData = some (item, after)) :
    offset < sweep.ceiling ∧ after.offset = offset + item.size := by
  unfold take? at h
  split at h
  · simp only [Option.bind_eq_bind, Option.bind_eq_some_iff, Option.pure_def, Option.some.injEq,
      Prod.mk.injEq] at h
    obtain ⟨value, read, rfl, rfl⟩ := h
    exact ⟨lt_ceiling_of_byte? read, rfl⟩
  · simp only [Option.bind_eq_bind, Option.bind_eq_some_iff, Option.pure_def, Option.some.injEq,
      Prod.mk.injEq] at h
    obtain ⟨instruction, read, rfl, rfl⟩ := h
    exact ⟨lt_ceiling_of_byte? (Instruction.opcode_of_decode? read), rfl⟩

/-- A turn after which the sweep goes on starts below the ceiling and moves the cursor onwards. -/
theorem turn_next_advances {sweep : Sweep} {cursor after : Cursor} {step : Step}
    (h : sweep.turn cursor = .next step after) :
    cursor.offset < sweep.ceiling ∧ cursor.offset < after.offset := by
  unfold turn at h
  simp only at h
  split at h
  · cases h
  · rename_i item taken read
    have advance := take?_advances read
    have pos := item.size_pos
    split at h
    · cases h
    · cases h
      exact ⟨advance.1, by omega⟩
    · cases h
      exact ⟨advance.1, by simp only; omega⟩

end Sm83.Sweep
