import Sm83.Sweep.Run

/-!
# The rows of a listing

A listing is laid out as rows one below the other: the header, and for each step the definitions
that are shown and its item, with empty rows where the listing stands apart. `text_eq_unlines` says
that these rows are the text.
-/

namespace Sm83

/-- Rows one below the other, each ended by a line feed. -/
def Text.unlines (rows : List String) : String :=
  String.join (rows.map (· ++ "\n"))

@[simp]
theorem Text.unlines_nil : unlines [] = "" :=
  rfl

@[simp]
theorem Text.unlines_cons (row : String) (rows : List String) :
    unlines (row :: rows) = row ++ "\n" ++ unlines rows := by
  simp [unlines]

/-- The rows of a text: what stands before, between and behind its line feeds. -/
def Text.splitRows (text : String) : List String :=
  (text.toList.splitOn '\n').map String.ofList

theorem Text.splitRows_unlines_append {rows : List String} {last : String}
    (oneRow : ∀ row ∈ rows, '\n' ∉ row.toList) (lastRow : '\n' ∉ last.toList) :
    splitRows (unlines rows ++ last) = rows ++ [last] := by
  have split : (unlines rows ++ last).toList.splitOn '\n' =
      (rows ++ [last]).map String.toList := by
    induction rows with
    | nil => simpa using List.splitOn_eq_singleton lastRow
    | cons row rows ih =>
        have rest := ih fun row passed => oneRow row (List.mem_cons_of_mem _ passed)
        have characters : (unlines (row :: rows) ++ last).toList =
            row.toList ++ '\n' :: (unlines rows ++ last).toList := by
          simp
        rw [characters, List.splitOn_append_cons_self_of_not_mem (oneRow row List.mem_cons_self),
          rest]
        rfl
  rw [splitRows, split]
  simp

theorem Text.unlines_injective {rows rows' : List String}
    (oneRow : ∀ row ∈ rows, '\n' ∉ row.toList) (oneRow' : ∀ row ∈ rows', '\n' ∉ row.toList)
    (same : unlines rows = unlines rows') : rows = rows' := by
  have noLast : '\n' ∉ "".toList := by simp
  have read := splitRows_unlines_append oneRow noLast
  rw [same, splitRows_unlines_append oneRow' noLast] at read
  exact (List.append_cancel_right read).symm

/-! ## Rows of lines -/

/-- The rows that lines add to a page that has begun, with an empty row where a separator lies
before a line that is shown. -/
def Page.rows (labels : LabelMap) (layout : Layout) : Bool → List Line → List String
  | _, [] => []
  | gap, line :: lines =>
    if line = .separator then rows labels layout true lines
    else match line.text? labels layout with
      | none => rows labels layout gap lines
      | some text => (if gap then [""] else []) ++ text :: rows labels layout false lines

theorem Page.add_of_none {labels : LabelMap} {layout : Layout} {page : Page} {line : Line}
    (shows : line ≠ .separator) (hidden : line.text? labels layout = none) :
    page.add labels layout line = page := by
  simp [Page.add, shows, hidden]

theorem Page.add_of_some {labels : LabelMap} {layout : Layout} {page : Page} {line : Line}
    {text : String} (shows : line ≠ .separator) (shown : line.text? labels layout = some text) :
    page.add labels layout line = page.append text := by
  simp [Page.add, shows, shown]

theorem Page.text_foldl_add (labels : LabelMap) (layout : Layout) (lines : List Line) (page : Page)
    (begun : page.begun = true) :
    (lines.foldl (Page.add labels layout) page).text ++ "\n" =
      page.text ++ "\n" ++ Text.unlines (Page.rows labels layout page.gap lines) := by
  induction lines generalizing page with
  | nil => simp [Page.rows]
  | cons line lines ih =>
      rw [List.foldl_cons]
      rw [Page.rows]
      by_cases separator : line = .separator
      · subst separator
        exact ih { page with gap := true } begun
      · simp only [separator, if_false]
        cases shown : line.text? labels layout with
        | none =>
            rw [Page.add_of_none separator shown]
            exact ih page begun
        | some text =>
            rw [Page.add_of_some separator shown, ih (page.append text) rfl]
            cases gap : page.gap with
            | false => simp [Page.append, Page.joint, begun, gap, String.append_assoc]
            | true =>
                have joint : (page.append text).text = page.text ++ "\n" ++ "\n" ++ text := by
                  simp [Page.append, Page.joint, begun, gap, String.append_assoc]
                have closed : (page.append text).gap = false := rfl
                rw [joint, closed]
                simp [String.append_assoc, -String.reduceAppend]

/-! ## Rows of steps -/

/-- The row of an item. -/
def Item.text (labels : LabelMap) (layout : Layout) : Item → String
  | code instruction argument =>
    layout.indent ++ instructionText labels instruction.template argument
  | data value => layout.indent ++ instructionText labels dataTemplate (some (.byte value))

theorem Item.text_of_slot (labels : LabelMap) (layout : Layout) {instruction : Instruction}
    {head tail : String} (slot : instruction.template = .around head tail) (argument : Argument) :
    (Item.code instruction (some argument)).text labels layout =
      layout.indent ++ head ++ argument.text labels ++ tail := by
  simp [text, instructionText, slot, Template.fill, Template.around, String.append_assoc]

@[simp]
theorem Item.text?_line (labels : LabelMap) (layout : Layout) (item : Item) :
    item.line.text? labels layout = some (item.text labels layout) := by
  cases item <;> rfl

theorem Item.line_ne_separator (item : Item) : item.line ≠ .separator := by
  cases item <;> simp [line]

/-- The row of the definition of a label, if it is shown. -/
def LabelMap.definition? (labels : LabelMap) (kind : LabelKind) (address : Nat) :
    Option String :=
  ((labels.get? kind address).filter Label.isUsed).map Label.name

theorem LabelMap.definition?_eq_some_iff {labels : LabelMap} {kind : LabelKind} {address : Nat}
    {name : String} :
    labels.definition? kind address = some name ↔
      ∃ label, labels.get? kind address = some label ∧ label.isUsed = true ∧ label.name = name := by
  simp [definition?, Option.map_eq_some_iff, Option.filter_eq_some_iff, and_assoc]

theorem LabelMap.definition?_eq_none_iff {labels : LabelMap} {kind : LabelKind} {address : Nat} :
    labels.definition? kind address = none ↔ labels.isUsed kind address = false := by
  simp only [definition?, isUsed]
  cases labels.get? kind address <;> simp [Option.filter_some]

theorem Argument.text_label (labels : LabelMap) (kind : LabelKind) (address : Nat) :
    (Argument.label kind address).text labels =
      (labels.definition? kind address).getD (addressText address) := by
  simp only [Argument.text, LabelMap.definition?]
  cases (labels.get? kind address).filter Label.isUsed <;> rfl

theorem Line.text?_definition (labels : LabelMap) (layout : Layout) (kind : LabelKind)
    (address : Nat) :
    (Line.definition kind address).text? labels layout = labels.definition? kind address :=
  rfl

/-- The definitions that are shown at the address of a step. -/
def Step.definitions (labels : LabelMap) (step : Step) : List String :=
  (labels.definition? .code (Bank.localAddress step.offset)).toList ++
    (labels.definition? .data (Bank.localAddress step.offset)).toList

theorem Step.mem_definitions {labels : LabelMap} {step : Step} {name : String} :
    name ∈ step.definitions labels ↔
      ∃ kind, labels.definition? kind (Bank.localAddress step.offset) = some name := by
  rw [definitions, List.mem_append]
  simp only [Option.mem_toList]
  constructor
  · rintro (code | data)
    · exact ⟨.code, code⟩
    · exact ⟨.data, data⟩
  · rintro ⟨kind, defined⟩
    cases kind with
    | code => exact .inl defined
    | data => exact .inr defined

/-- The rows of a step: the definitions at its address that are shown, and its item. -/
def Step.rows (labels : LabelMap) (layout : Layout) (step : Step) : List String :=
  (labels.definition? .code (Bank.localAddress step.offset)).toList ++
    (labels.definition? .data (Bank.localAddress step.offset)).toList ++
    [step.item.text labels layout]

theorem Step.rows_eq (labels : LabelMap) (layout : Layout) (step : Step) :
    step.rows labels layout = step.definitions labels ++ [step.item.text labels layout] :=
  rfl

/-- The rows of steps behind a row, with an empty row where steps stand apart. -/
def Step.rowsOf (labels : LabelMap) (layout : Layout) : Bool → List Step → List String
  | _, [] => []
  | gap, step :: steps =>
    (if gap || step.apartBefore then [""] else []) ++ step.rows labels layout ++
      rowsOf labels layout step.apartAfter steps

theorem Page.rows_lines_append (labels : LabelMap) (layout : Layout) (gap : Bool) (step : Step)
    (lines : List Line) :
    Page.rows labels layout gap (step.lines ++ lines) =
      (if gap || step.apartBefore then [""] else []) ++ step.rows labels layout ++
        Page.rows labels layout step.apartAfter lines := by
  have item := step.item.line_ne_separator
  simp only [Step.lines, Step.rows]
  cases step.apartBefore <;> cases step.apartAfter <;> cases gap <;>
    cases code : labels.definition? .code (Bank.localAddress step.offset) <;>
    cases data : labels.definition? .data (Bank.localAddress step.offset) <;>
    simp [Page.rows, Line.text?_definition, code, data, item]

theorem Page.rows_flatMap_lines (labels : LabelMap) (layout : Layout) (gap : Bool)
    (steps : List Step) :
    Page.rows labels layout gap (steps.flatMap Step.lines) =
      Step.rowsOf labels layout gap steps := by
  induction steps generalizing gap with
  | nil => rfl
  | cons step steps ih =>
      rw [List.flatMap_cons, Page.rows_lines_append, ih]
      rfl

theorem Step.rowsOf_append (labels : LabelMap) (layout : Layout) (gap : Bool)
    (earlier later : List Step) :
    ∃ gap', Step.rowsOf labels layout gap (earlier ++ later) =
      Step.rowsOf labels layout gap earlier ++ Step.rowsOf labels layout gap' later := by
  induction earlier generalizing gap with
  | nil => exact ⟨gap, rfl⟩
  | cons step earlier ih =>
      obtain ⟨gap', rest⟩ := ih step.apartAfter
      exact ⟨gap', by simp [Step.rowsOf, rest]⟩

theorem Step.mem_rows {labels : LabelMap} {layout : Layout} {step : Step} {row : String} :
    row ∈ step.rows labels layout ↔
      (∃ kind, labels.definition? kind (Bank.localAddress step.offset) = some row) ∨
        row = step.item.text labels layout := by
  rw [rows_eq, List.mem_append, mem_definitions, List.mem_singleton]

theorem Step.mem_rowsOf {labels : LabelMap} {layout : Layout} {gap : Bool} {steps : List Step}
    {row : String} (shown : row ∈ rowsOf labels layout gap steps) :
    row = "" ∨ ∃ step ∈ steps, row ∈ step.rows labels layout := by
  induction steps generalizing gap with
  | nil => cases shown
  | cons step steps ih =>
      simp only [rowsOf, List.mem_append] at shown
      rcases shown with (empty | here) | later
      · split at empty
        · exact .inl (List.mem_singleton.mp empty)
        · cases empty
      · exact .inr ⟨step, List.mem_cons_self, here⟩
      · rcases ih later with empty | ⟨other, passed, there⟩
        · exact .inl empty
        · exact .inr ⟨other, List.mem_cons_of_mem _ passed, there⟩

/-- Rows that can be told from empty rows are picked out step by step. -/
theorem Step.filter_rowsOf {labels : LabelMap} {layout : Layout} {keep : String → Bool}
    (empty : keep "" = false) (gap : Bool) (steps : List Step) :
    (rowsOf labels layout gap steps).filter keep =
      steps.flatMap fun step => (step.rows labels layout).filter keep := by
  induction steps generalizing gap with
  | nil => rfl
  | cons step steps ih =>
      have gapRow : (if gap || step.apartBefore then [""] else []).filter keep = [] := by
        split <;> simp [empty]
      rw [rowsOf, List.filter_append, List.filter_append, gapRow, ih]
      rfl

/-! ## Rows of a listing -/

namespace Listing

variable (listing : Listing) (layout : Layout)

/-- The row of the header. -/
def headerRow : String :=
  routineName listing.start ++ ":" ++ Bank.remark listing.start

/-- What stands behind the last row. -/
def trailer : String :=
  if layout.showEnd then "; 0x" ++ Text.hex listing.endOffset else ""

/-- The rows of the header and of the first steps of a listing. -/
def rowsThrough (steps : List Step) : List String :=
  listing.headerRow :: Step.rowsOf listing.labels layout false steps

/-- The rows of a listing. -/
def rows : List String :=
  listing.rowsThrough layout listing.steps.toList

/-- The text of a listing is its rows, one below the other, and the note of its end. -/
theorem text_eq_unlines :
    listing.text layout = Text.unlines (listing.rows layout) ++ listing.trailer layout := by
  have header : Page.add listing.labels layout {} (.header listing.start) =
      ⟨listing.headerRow, true, false⟩ := by
    simp [Page.add, Line.text?, Page.append, Page.joint, headerRow]
  rw [text_eq_render]
  simp only [render, lines, Page.close]
  rw [List.foldl_cons, header, Page.text_foldl_add _ _ _ _ rfl, Page.rows_flatMap_lines]
  simp [rows, rowsThrough, trailer]

/-- The rows of a step stand between those of the earlier and those of the later steps, behind an
empty row or none. -/
theorem rows_split {earlier later : List Step} {step : Step}
    (split : listing.steps.toList = earlier ++ step :: later) :
    ∃ gap, (gap = [] ∨ gap = [""]) ∧ listing.rows layout =
      listing.rowsThrough layout earlier ++ gap ++ step.rows listing.labels layout ++
        Step.rowsOf listing.labels layout step.apartAfter later := by
  obtain ⟨gap', cut⟩ := Step.rowsOf_append listing.labels layout false earlier (step :: later)
  refine ⟨if gap' || step.apartBefore then [""] else [], ?_, ?_⟩
  · split <;> simp
  · simp [rows, rowsThrough, split, cut, Step.rowsOf]

/-- The item passed at an offset is printed as a row, directly below some rows: it stands behind the
rows of all earlier steps, and directly in front of those of the later steps. -/
def PrintsAt (offset : Nat) (above : List String) (row : String) : Prop :=
  ∃ earlier step later between, listing.steps.toList = earlier ++ step :: later ∧
    step.offset = offset ∧
    listing.text layout =
      Text.unlines (listing.rowsThrough layout earlier ++ between ++ above ++ row ::
        Step.rowsOf listing.labels layout step.apartAfter later) ++ listing.trailer layout

theorem printsAt_of_mem {step : Step} (passed : step ∈ listing.steps.toList)
    {before above : List String} {row : String}
    (stepRows : step.rows listing.labels layout = before ++ above ++ [row]) :
    listing.PrintsAt layout step.offset above row := by
  obtain ⟨earlier, later, cut⟩ := List.append_of_mem passed
  obtain ⟨gap, _, rows⟩ := listing.rows_split layout cut
  refine ⟨earlier, step, later, gap ++ before, cut, rfl, ?_⟩
  rw [text_eq_unlines, rows, stepRows]
  simp only [List.append_assoc, List.singleton_append]

theorem printsAt_item {step : Step} (passed : step ∈ listing.steps.toList) :
    listing.PrintsAt layout step.offset [] (step.item.text listing.labels layout) := by
  apply listing.printsAt_of_mem layout passed
  · simp only [Step.rows, List.append_nil]
    rfl

theorem printsAt_definition {step : Step} (passed : step ∈ listing.steps.toList) {name : String}
    (defined : (listing.labels.definition? .code (Bank.localAddress step.offset)).toList ++
      (listing.labels.definition? .data (Bank.localAddress step.offset)).toList = [name]) :
    listing.PrintsAt layout step.offset [name] (step.item.text listing.labels layout) := by
  apply listing.printsAt_of_mem layout passed
  · rw [Step.rows, defined, List.nil_append]

end Listing

end Sm83
