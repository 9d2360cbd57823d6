import Mathlib
import Sm83.Proofs.Listing.Rows

/-!
# Sections of a listing

Separators part the lines of a listing into sections. Once the lines that show nothing are gone, the
text of a listing is its sections, one below the other, with one empty row between any two of them
and none around them: `render_normalises`. So lines that differ only in definitions nobody uses and
in how often separators are repeated give the same text.
-/

namespace Sm83

theorem Text.unlines_eq_intercalate {rows : List String} (notEmpty : rows ≠ []) :
    unlines rows = "\n".intercalate rows ++ "\n" := by
  induction rows with
  | nil => exact absurd rfl notEmpty
  | cons row rows ih =>
      cases rows with
      | nil => simp
      | cons next rows =>
          rw [unlines_cons, ih (List.cons_ne_nil _ _), String.intercalate_cons_cons]
          simp only [String.append_assoc]

/-! ## Lines that are shown -/

namespace Line

/-- Whether a line is shown: the definition of a label if something refers to it, a separator
never, and any other line always. -/
def isShown (labels : LabelMap) : Line → Bool
  | header _ | instruction _ _ => true
  | separator => false
  | definition kind address => labels.isUsed kind address

/-- The row of a line that is shown. -/
def row (labels : LabelMap) (layout : Layout) : Line → String
  | header offset => routineName offset ++ ":" ++ Bank.remark offset
  | separator => ""
  | definition kind address => ((labels.get? kind address).map Label.name).getD ""
  | instruction template argument => layout.indent ++ instructionText labels template argument

/-- The lines without the definitions that are not shown. -/
def prune (labels : LabelMap) (lines : List Line) : List Line :=
  lines.filter fun line => line = separator || line.isShown labels

/-- The sections of lines: what stands between separators, wherever anything does. -/
def sections (lines : List Line) : List (List Line) :=
  (lines.splitOn separator).filter (· ≠ [])

/-- The rows of lines: those of their sections, with an empty row between any two sections. -/
def rowsOf (labels : LabelMap) (layout : Layout) (lines : List Line) : List String :=
  [""].intercalate ((sections (prune labels lines)).map (·.map (row labels layout)))

variable {labels : LabelMap} {layout : Layout} {line next : Line} {lines : List Line}

theorem isShown_separator : separator.isShown labels = false :=
  rfl

theorem text?_eq (labels : LabelMap) (layout : Layout) (line : Line) :
    line.text? labels layout =
      if line.isShown labels then some (line.row labels layout) else none := by
  cases line with
  | header offset | separator | instruction template argument => rfl
  | definition kind address =>
      cases found : labels.get? kind address with
      | none => simp [text?, isShown, LabelMap.isUsed, found]
      | some label =>
          cases used : label.isUsed <;>
            simp [text?, isShown, row, LabelMap.isUsed, found, used]

theorem ne_separator_of_isShown (shown : line.isShown labels = true) : line ≠ separator := by
  rintro rfl
  cases shown

/-- A line is shown, it is a separator, or it leaves no trace. -/
theorem shown_or_separator_or_hidden (labels : LabelMap) (line : Line) :
    line.isShown labels = true ∨ line = separator ∨
      line.isShown labels = false ∧ line ≠ separator := by
  by_cases gap : line = separator
  · exact .inr (.inl gap)
  · cases shown : line.isShown labels with
    | true => exact .inl rfl
    | false => exact .inr (.inr ⟨rfl, gap⟩)

/-! ## Pruning -/

theorem prune_append (labels : LabelMap) (lines lines' : List Line) :
    prune labels (lines ++ lines') = prune labels lines ++ prune labels lines' :=
  List.filter_append ..

theorem prune_separator (labels : LabelMap) (lines : List Line) :
    prune labels (separator :: lines) = separator :: prune labels lines := by
  simp [prune]

theorem prune_of_isShown (shown : line.isShown labels = true) (lines : List Line) :
    prune labels (line :: lines) = line :: prune labels lines := by
  simp [prune, shown]

theorem prune_of_hidden (hidden : line.isShown labels = false) (noGap : line ≠ separator)
    (lines : List Line) : prune labels (line :: lines) = prune labels lines := by
  simp [prune, hidden, noGap]

theorem eq_separator_of_mem_prune (hidden : ∀ line ∈ lines, line.isShown labels = false)
    (left : line ∈ prune labels lines) : line = separator := by
  obtain ⟨passed, kept⟩ := List.mem_filter.mp left
  simpa [hidden line passed] using kept

/-! ## Sections -/

theorem sections_append_separator (before after : List Line) :
    sections (before ++ separator :: after) = sections before ++ sections after := by
  rw [sections, List.splitOn_append_cons_self, List.filter_append]
  rfl

theorem sections_separator (lines : List Line) : sections (separator :: lines) = sections lines :=
  sections_append_separator [] lines

theorem sections_separators_append {gaps : List Line} (isGap : ∀ line ∈ gaps, line = separator)
    (lines : List Line) : sections (gaps ++ lines) = sections lines := by
  induction gaps with
  | nil => rfl
  | cons gap gaps ih =>
      obtain ⟨rfl, rest⟩ := List.forall_mem_cons.mp isGap
      rw [List.cons_append, sections_separator, ih rest]

theorem sections_append_separators {gaps : List Line} (isGap : ∀ line ∈ gaps, line = separator)
    (lines : List Line) : sections (lines ++ gaps) = sections lines := by
  cases gaps with
  | nil => rw [List.append_nil]
  | cons gap gaps =>
      obtain ⟨rfl, rest⟩ := List.forall_mem_cons.mp isGap
      have noSection := sections_separators_append rest []
      rw [List.append_nil] at noSection
      rw [sections_append_separator, noSection]
      exact List.append_nil _

theorem sections_cons_cons (noGap : line ≠ separator) (noGap' : next ≠ separator)
    (lines : List Line) :
    ∃ first rest, sections (next :: lines) = (next :: first) :: rest ∧
      sections (line :: next :: lines) = (line :: next :: first) :: rest := by
  obtain ⟨first, rest, split⟩ := List.exists_cons_of_ne_nil (List.splitOn_ne_nil separator lines)
  refine ⟨first, rest.filter (· ≠ []), ?_, ?_⟩ <;>
    simp [sections, List.splitOn_cons_eq_if_modifyHead, split, noGap, noGap']

theorem ne_nil_of_mem_sections {part : List Line} (isPart : part ∈ sections lines) : part ≠ [] := by
  simpa using (List.mem_filter.mp isPart).2

theorem sections_singleton (noGap : line ≠ separator) : sections [line] = [[line]] := by
  simp [sections, List.splitOn_cons_eq_if_modifyHead, noGap]

theorem flatten_splitOn (lines : List Line) :
    (lines.splitOn separator).flatten = lines.filter (· ≠ separator) := by
  induction lines with
  | nil => rfl
  | cons line lines ih =>
      rw [List.splitOn_cons_eq_if_modifyHead]
      by_cases gap : line = separator
      · simpa [gap] using ih
      · obtain ⟨first, rest, split⟩ :=
          List.exists_cons_of_ne_nil (List.splitOn_ne_nil separator lines)
        rw [split] at ih
        simpa [gap, split] using ih

/-- Behind pruning, the sections hold the lines that are shown, in their order. -/
theorem flatten_sections_prune (labels : LabelMap) (lines : List Line) :
    (sections (prune labels lines)).flatten = lines.filter (isShown labels) := by
  rw [sections, List.flatten_filter_ne_nil, flatten_splitOn, prune, List.filter_filter]
  apply List.filter_congr
  intro line _
  by_cases gap : line = separator <;> simp [gap, isShown_separator]

/-! ## Rows -/

theorem rowsOf_nil : rowsOf labels layout [] = [] :=
  rfl

theorem rowsOf_separator (lines : List Line) :
    rowsOf labels layout (separator :: lines) = rowsOf labels layout lines := by
  rw [rowsOf, prune_separator, sections_separator, rowsOf]

theorem rowsOf_of_hidden (hidden : line.isShown labels = false) (lines : List Line) :
    rowsOf labels layout (line :: lines) = rowsOf labels layout lines := by
  by_cases gap : line = separator
  · rw [gap, rowsOf_separator]
  · rw [rowsOf, prune_of_hidden hidden gap, rowsOf]

theorem rowsOf_append_hidden (hidden : line.isShown labels = false) (noGap : line ≠ separator)
    (before after : List Line) :
    rowsOf labels layout (before ++ line :: after) = rowsOf labels layout (before ++ after) := by
  rw [rowsOf, prune_append, prune_of_hidden hidden noGap, ← prune_append, rowsOf]

theorem rowsOf_singleton (shown : line.isShown labels = true) :
    rowsOf labels layout [line] = [line.row labels layout] := by
  rw [rowsOf, prune_of_isShown shown, prune, List.filter_nil,
    sections_singleton (ne_separator_of_isShown shown)]
  rfl

theorem rowsOf_cons_cons (shown : line.isShown labels = true) (shown' : next.isShown labels = true)
    (lines : List Line) :
    rowsOf labels layout (line :: next :: lines) =
      line.row labels layout :: rowsOf labels layout (next :: lines) := by
  have noGap := ne_separator_of_isShown shown
  have noGap' := ne_separator_of_isShown shown'
  obtain ⟨first, rest, behind, whole⟩ := sections_cons_cons noGap noGap' (prune labels lines)
  rw [rowsOf, rowsOf, prune_of_isShown shown, prune_of_isShown shown', behind, whole]
  cases rest <;> simp

theorem rowsOf_cons_separator (shown : line.isShown labels = true) (lines : List Line) :
    rowsOf labels layout (line :: separator :: lines) = line.row labels layout ::
      if rowsOf labels layout lines = [] then [] else "" :: rowsOf labels layout lines := by
  have noGap := ne_separator_of_isShown shown
  have parts : sections (line :: separator :: prune labels lines) =
      [line] :: sections (prune labels lines) := by
    rw [← List.singleton_append, sections_append_separator, sections_singleton noGap]
    rfl
  rw [rowsOf, prune_of_isShown shown, prune_separator, parts, rowsOf]
  cases found : sections (prune labels lines) with
  | nil => simp
  | cons part rest =>
      have notEmpty : part ≠ [] := ne_nil_of_mem_sections (found ▸ List.mem_cons_self)
      obtain ⟨first, more, rfl⟩ := List.exists_cons_of_ne_nil notEmpty
      cases rest <;> simp

end Line

/-! ## Rows of a page -/

namespace Page

open Line

variable {labels : LabelMap} {layout : Layout} {line : Line} {lines : List Line}

theorem rows_of_isShown (shown : line.isShown labels = true) (gap : Bool) (lines : List Line) :
    rows labels layout gap (line :: lines) = (if gap then [""] else []) ++
      line.row labels layout :: rows labels layout false lines := by
  simp [rows, ne_separator_of_isShown shown, text?_eq, shown]

theorem rows_separator (gap : Bool) (lines : List Line) :
    rows labels layout gap (.separator :: lines) = rows labels layout true lines := by
  simp [rows]

theorem rows_of_hidden (hidden : line.isShown labels = false) (noGap : line ≠ .separator)
    (gap : Bool) (lines : List Line) :
    rows labels layout gap (line :: lines) = rows labels layout gap lines := by
  simp [rows, noGap, text?_eq, hidden]

/-- What a page that has begun gains by lines: behind a line that is shown the rest of its rows, and
behind a separator their own rows, apart from what is there. -/
theorem rows_eq (lines : List Line) :
    (∀ line, line.isShown labels = true → rowsOf labels layout (line :: lines) =
      line.row labels layout :: rows labels layout false lines) ∧
    rows labels layout true lines =
      if rowsOf labels layout lines = [] then [] else "" :: rowsOf labels layout lines := by
  induction lines with
  | nil => exact ⟨fun line shown => rowsOf_singleton shown, rfl⟩
  | cons next lines ih =>
      obtain ⟨follows, apart⟩ := ih
      rcases shown_or_separator_or_hidden labels next with shown' | rfl | ⟨hidden, noGap⟩
      · rw [rows_of_isShown shown', rows_of_isShown shown', follows next shown']
        refine ⟨fun line shown => ?_, rfl⟩
        rw [rowsOf_cons_cons shown shown', follows next shown']
        rfl
      · rw [rows_separator, rows_separator, rowsOf_separator]
        refine ⟨fun line shown => ?_, apart⟩
        rw [rowsOf_cons_separator shown, apart]
      · rw [rows_of_hidden hidden noGap, rows_of_hidden hidden noGap, rowsOf_of_hidden hidden]
        refine ⟨fun line shown => ?_, apart⟩
        rw [← follows line shown]
        exact rowsOf_append_hidden hidden noGap [line] lines

theorem rowsOf_of_isShown (shown : line.isShown labels = true) (lines : List Line) :
    rowsOf labels layout (line :: lines) =
      line.row labels layout :: rows labels layout false lines :=
  (rows_eq lines).1 line shown

theorem rows_append (shown : line.isShown labels = true) (gap : Bool) (before after : List Line) :
    rows labels layout gap (before ++ line :: after) =
      rows labels layout gap (before ++ [line]) ++ rows labels layout false after := by
  induction before generalizing gap with
  | nil => simp [rows_of_isShown shown, rows]
  | cons first before ih =>
      rw [List.cons_append, List.cons_append]
      rcases shown_or_separator_or_hidden labels first with shown' | rfl | ⟨hidden, noGap⟩
      · rw [rows_of_isShown shown', rows_of_isShown shown', ih]
        simp
      · rw [rows_separator, rows_separator, ih]
      · rw [rows_of_hidden hidden noGap, rows_of_hidden hidden noGap, ih]

/-- Lines that are not shown leave an empty row if there is a separator among them. -/
theorem rows_hidden_append {between : List Line}
    (hidden : ∀ line ∈ between, line.isShown labels = false) (shown : line.isShown labels = true)
    (gap : Bool) (after : List Line) :
    rows labels layout gap (between ++ line :: after) =
      (if gap = true ∨ .separator ∈ between then [""] else []) ++
        rowsOf labels layout (line :: after) := by
  induction between generalizing gap with
  | nil => simp [rows_of_isShown shown, rowsOf_of_isShown shown]
  | cons first between ih =>
      obtain ⟨hiddenFirst, hiddenRest⟩ := List.forall_mem_cons.mp hidden
      rw [List.cons_append]
      by_cases isGap : first = .separator
      · subst isGap
        rw [rows_separator, ih hiddenRest]
        simp
      · rw [rows_of_hidden hiddenFirst isGap, ih hiddenRest]
        simp [Ne.symm isGap]

theorem text_foldl_add_eq_intercalate (gap : Bool) (lines : List Line) :
    (lines.foldl (add labels layout) { gap := gap }).text ++ "\n" =
      "\n".intercalate (rowsOf labels layout lines) ++ "\n" := by
  induction lines generalizing gap with
  | nil => rfl
  | cons line lines ih =>
      rw [List.foldl_cons]
      rcases shown_or_separator_or_hidden labels line with shown | rfl | ⟨hidden, noGap⟩
      · have text : line.text? labels layout = some (line.row labels layout) := by
          rw [text?_eq, if_pos shown]
        rw [add_of_some (ne_separator_of_isShown shown) text, text_foldl_add _ _ _ _ rfl,
          rowsOf_of_isShown shown, ← Text.unlines_eq_intercalate (List.cons_ne_nil _ _)]
        simp [append, joint]
      · rw [rowsOf_separator]
        exact ih true
      · have text : line.text? labels layout = none := by
          rw [text?_eq, hidden]
          rfl
        rw [add_of_none noGap text, ih, rowsOf_of_hidden hidden]

end Page

namespace Line

variable {labels : LabelMap} {layout : Layout} {line next : Line} {lines : List Line}

/-! ## Neighbours -/

theorem rowsOf_append (shown : line.isShown labels = true) (before after : List Line) :
    rowsOf labels layout (before ++ line :: after) =
      rowsOf labels layout (before ++ [line]) ++ Page.rows labels layout false after := by
  induction before with
  | nil =>
      rw [List.nil_append, List.nil_append, rowsOf_singleton shown, Page.rowsOf_of_isShown shown]
      rfl
  | cons first before ih =>
      rw [List.cons_append, List.cons_append]
      by_cases shown' : first.isShown labels = true
      · rw [Page.rowsOf_of_isShown shown', Page.rowsOf_of_isShown shown', Page.rows_append shown]
        rfl
      · have hidden : first.isShown labels = false := by simpa using shown'
        rw [rowsOf_of_hidden hidden, rowsOf_of_hidden hidden, ih]

/-- Between two lines that are shown and have no such line between them stands one empty row if
there is a separator between them, and else nothing. -/
theorem rowsOf_neighbours {between : List Line} (shown : line.isShown labels = true)
    (shown' : next.isShown labels = true)
    (hidden : ∀ other ∈ between, other.isShown labels = false) (before after : List Line) :
    rowsOf labels layout (before ++ line :: between ++ next :: after) =
      rowsOf labels layout (before ++ [line]) ++
        (if separator ∈ between then [""] else []) ++ rowsOf labels layout (next :: after) := by
  rw [List.append_assoc, List.cons_append, rowsOf_append shown,
    Page.rows_hidden_append hidden shown']
  simp

theorem rowsOf_between_hidden {front back : List Line}
    (hidden : ∀ line ∈ front, line.isShown labels = false)
    (hidden' : ∀ line ∈ back, line.isShown labels = false) (lines : List Line) :
    rowsOf labels layout (front ++ lines ++ back) = rowsOf labels layout lines := by
  rw [rowsOf, prune_append, prune_append,
    sections_append_separators fun _ => eq_separator_of_mem_prune hidden',
    sections_separators_append fun _ => eq_separator_of_mem_prune hidden, rowsOf]

theorem rowsOf_eq_nil (hidden : ∀ line ∈ lines, line.isShown labels = false) :
    rowsOf labels layout lines = [] := by
  have noBack : ∀ line ∈ ([] : List Line), line.isShown labels = false := by simp
  have onlyFront := @rowsOf_between_hidden labels layout lines [] hidden noBack []
  rwa [List.append_nil, List.append_nil, rowsOf_nil] at onlyFront

theorem rowsOf_eq_singleton {front back : List Line}
    (hidden : ∀ line ∈ front, line.isShown labels = false) (shown : line.isShown labels = true)
    (hidden' : ∀ line ∈ back, line.isShown labels = false) :
    rowsOf labels layout (front ++ line :: back) = [line.row labels layout] := by
  rw [List.append_cons, rowsOf_between_hidden hidden hidden', rowsOf_singleton shown]

/-! ## Lines that make no difference -/

/-- The first lines have one line more than the second, and it makes no difference to the text: the
definition of a label that nothing refers to, a separator next to a separator, or one at an end. -/
inductive HasIdle (labels : LabelMap) : List Line → List Line → Prop where
  | unused {kind : LabelKind} {address : Nat} (unused : labels.isUsed kind address = false)
      (before after : List Line) :
      HasIdle labels (before ++ definition kind address :: after) (before ++ after)
  | repeated (before after : List Line) :
      HasIdle labels (before ++ separator :: separator :: after) (before ++ separator :: after)
  | leading (lines : List Line) : HasIdle labels (separator :: lines) lines
  | trailing (lines : List Line) : HasIdle labels (lines ++ [separator]) lines

theorem HasIdle.rowsOf_eq {lines' : List Line} (idle : HasIdle labels lines lines') :
    rowsOf labels layout lines = rowsOf labels layout lines' := by
  cases idle with
  | @unused kind address unused before after =>
      have hidden : (definition kind address).isShown labels = false := unused
      exact rowsOf_append_hidden hidden (by simp) before after
  | repeated before after =>
      rw [rowsOf, rowsOf, prune_append, prune_append, prune_separator, prune_separator,
        sections_append_separator, sections_append_separator, sections_separator]
  | leading => exact rowsOf_separator _
  | trailing =>
      have hidden : ∀ line ∈ [separator], line.isShown labels = false := by simp [isShown]
      have noFront : ∀ line ∈ ([] : List Line), line.isShown labels = false := by simp
      exact rowsOf_between_hidden noFront hidden _

end Line

/-! ## References -/

theorem text_label_eq (labels : LabelMap) (layout : Layout) (kind : LabelKind) (address : Nat) :
    (Argument.label kind address).text labels =
      if (Line.definition kind address).isShown labels then
        (Line.definition kind address).row labels layout
      else addressText address := by
  rw [Argument.text_label, ← Line.text?_definition labels layout, Line.text?_eq]
  split <;> rfl

theorem text_label_eq_name_iff {labels : LabelMap} {kind : LabelKind} {address : Nat}
    {label : Label} (found : labels.get? kind address = some label)
    (other : label.name ≠ addressText address) :
    (Argument.label kind address).text labels = label.name ↔
      (Line.definition kind address).isShown labels = true := by
  rw [text_label_eq labels {} kind address]
  cases (Line.definition kind address).isShown labels with
  | true => simp [Line.row, found]
  | false => simpa using other.symm

/-! ## The text -/

theorem render_eq_intercalate (lines : List Line) (labels : LabelMap) (layout : Layout)
    (endOffset : Nat) :
    render lines labels layout endOffset =
      "\n".intercalate (Line.rowsOf labels layout lines) ++ "\n" ++
        if layout.showEnd then "; 0x" ++ Text.hex endOffset else "" := by
  rw [render, Page.close]
  exact congrArg (· ++ _) (Page.text_foldl_add_eq_intercalate false lines)

/-- Lines that make no difference may be left out or put in, as often as one likes. -/
theorem render_eq_of_eqvGen {labels : LabelMap} {lines lines' : List Line}
    (same : Relation.EqvGen (Line.HasIdle labels) lines lines') (layout : Layout)
    (endOffset : Nat) :
    render lines labels layout endOffset = render lines' labels layout endOffset := by
  induction same with
  | rel lines lines' idle => rw [render_eq_intercalate, render_eq_intercalate, idle.rowsOf_eq]
  | refl lines => rfl
  | symm lines lines' _ ih => exact ih.symm
  | trans lines between lines' _ _ ih ih' => exact ih.trans ih'

/-- The text of lines is their rows, joined by line feeds and ended by one more, and the note of the
end. The rows are those of the lines that are shown, in their order: no line, no row; one line, its
row alone; and between any two neighbours an empty row exactly if there is a separator between them.
So unused definitions, repeated separators and separators at the ends make no difference, and a
reference shows a name exactly if the definition it refers to is shown. -/
theorem render_normalises (lines : List Line) (labels : LabelMap) (layout : Layout)
    (endOffset : Nat) :
    let rows := Line.rowsOf labels layout
    (render lines labels layout endOffset = "\n".intercalate (rows lines) ++ "\n" ++
        if layout.showEnd then "; 0x" ++ Text.hex endOffset else "") ∧
    (Line.sections (Line.prune labels lines)).flatten = lines.filter (Line.isShown labels) ∧
    ((∀ line ∈ lines, line.isShown labels = false) → rows lines = []) ∧
    (∀ front line back, lines = front ++ line :: back →
      (∀ other ∈ front, other.isShown labels = false) → line.isShown labels = true →
      (∀ other ∈ back, other.isShown labels = false) → rows lines = [line.row labels layout]) ∧
    (∀ before line between next after, lines = before ++ line :: between ++ next :: after →
      line.isShown labels = true → (∀ other ∈ between, other.isShown labels = false) →
      next.isShown labels = true → rows lines =
        rows (before ++ [line]) ++ (if .separator ∈ between then [""] else []) ++
          rows (next :: after)) ∧
    (∀ lines', Relation.EqvGen (Line.HasIdle labels) lines lines' →
      render lines labels layout endOffset = render lines' labels layout endOffset) ∧
    ∀ kind address,
      (Argument.label kind address).text labels =
        (if (Line.definition kind address).isShown labels then
          (Line.definition kind address).row labels layout
        else addressText address) ∧
      ∀ label, labels.get? kind address = some label → label.name ≠ addressText address →
        ((Argument.label kind address).text labels = label.name ↔
          (Line.definition kind address).isShown labels = true) := by
  intro rows
  refine ⟨render_eq_intercalate lines labels layout endOffset,
    Line.flatten_sections_prune labels lines, Line.rowsOf_eq_nil, ?_, ?_, ?_, ?_⟩
  · rintro front line back rfl hidden shown hidden'
    exact Line.rowsOf_eq_singleton hidden shown hidden'
  · rintro before line between next after rfl shown hidden shown'
    exact Line.rowsOf_neighbours shown shown' hidden before after
  · exact fun lines' same => render_eq_of_eqvGen same layout endOffset
  · exact fun kind address => ⟨text_label_eq labels layout kind address,
      fun label found other => text_label_eq_name_iff found other⟩

/-- Separators around a definition that nothing refers to leave one empty row, and a separator at
the end leaves none. -/
theorem render_normalises_around_unused_definition :
    let ret := Line.instruction (.fixed "ret") none
    let nop := Line.instruction (.fixed "nop") none
    let lines := [ret, .separator, .definition .code 0, .separator, nop, .separator]
    Line.rowsOf .empty {} lines = ["\tret", "", "\tnop"] ∧
      render lines .empty {} 2 = "\tret\n\n\tnop\n; 0x2" ∧
      render lines .empty {} 2 = render [ret, .separator, nop] .empty {} 2 := by
  intro ret nop lines
  have unused : LabelMap.empty.isUsed .code 0 = false := by simp [LabelMap.isUsed]
  obtain ⟨text, _, _, _, neighbours, idle, _⟩ := render_normalises lines .empty {} 2
  obtain ⟨_, _, _, alone, _⟩ := render_normalises [nop, .separator] .empty {} 2
  obtain ⟨_, _, _, alone', _⟩ := render_normalises [ret] .empty {} 2
  have first : Line.rowsOf .empty {} [ret] = ["\tret"] :=
    alone' [] ret [] rfl (by simp) rfl (by simp)
  have last : Line.rowsOf .empty {} [nop, .separator] = ["\tnop"] :=
    alone [] nop [.separator] rfl (by simp) rfl (by simp [Line.isShown])
  have rows : Line.rowsOf .empty {} lines = ["\tret", "", "\tnop"] := by
    rw [neighbours [] ret [.separator, .definition .code 0, .separator] nop [.separator] rfl rfl
      (by simp [Line.isShown, unused]) rfl, last]
    simp [first]
  refine ⟨rows, ?_, idle _ ?_⟩
  · rw [text, rows]
    decide
  · have first : Line.HasIdle .empty lines [ret, .separator, .separator, nop, .separator] :=
      .unused unused [ret, .separator] [.separator, nop, .separator]
    have second : Line.HasIdle .empty [ret, .separator, .separator, nop, .separator]
        [ret, .separator, nop, .separator] :=
      .repeated [ret] [nop, .separator]
    have third : Line.HasIdle .empty [ret, .separator, nop, .separator] [ret, .separator, nop] :=
      .trailing [ret, .separator, nop]
    exact .trans _ _ _ (.rel _ _ first) (.trans _ _ _ (.rel _ _ second) (.rel _ _ third))

end Sm83
