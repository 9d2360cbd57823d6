import Sm83.Text.Blank
import Sm83.Text.Line

/-!
# Fields, cuts and lines of composed texts

A blank parts the fields before it from the fields behind it: `fields_append_blank`, from which all
other facts about fields follow. A text is cut at the first mark, and its lines are those that it
is divided into: `lines_eq_iff`.
-/

namespace Sm83.Text

/-- A text of nothing but blanks. -/
def IsGap (text : List Char) : Prop :=
  ∀ c ∈ text, isBlank c = true

instance (text : List Char) : Decidable (IsGap text) :=
  decidable_of_iff (text.all isBlank = true) List.all_eq_true

/-! ## Fields -/

theorem fields_append_blank {c : Char} (blank : isBlank c = true) (text behind : List Char) :
    fields (text ++ c :: behind) = fields text ++ fields behind := by
  rw [fields, List.splitOnP_append_cons _ _ blank, List.filter_append]
  rfl

theorem fields_of_word {word : List Char} (isWord : ∀ c ∈ word, isBlank c = false)
    (notEmpty : word ≠ []) : fields word = [word] := by
  rw [fields, List.splitOnP_eq_singleton isWord]
  simp [notEmpty]

theorem fields_gap_append {gap : List Char} (blank : IsGap gap) (text : List Char) :
    fields (gap ++ text) = fields text := by
  induction gap with
  | nil => rfl
  | cons c gap ih =>
      have first := fields_append_blank (blank c List.mem_cons_self) [] (gap ++ text)
      rw [List.nil_append] at first
      rw [List.cons_append, first, ih fun d passed => blank d (List.mem_cons_of_mem _ passed)]
      rfl

theorem fields_of_gap {gap : List Char} (blank : IsGap gap) : fields gap = [] := by
  have whole := fields_gap_append blank []
  rwa [List.append_nil] at whole

theorem fields_eq_nil_iff {text : List Char} : fields text = [] ↔ IsGap text := by
  refine ⟨fun none => ?_, fields_of_gap⟩
  induction text with
  | nil => simp [IsGap]
  | cons c text ih =>
      by_cases blank : isBlank c = true
      · have parted := fields_append_blank blank [] text
        rw [List.nil_append, none] at parted
        have rest : fields text = [] := (List.append_eq_nil_iff.mp parted.symm).2
        exact List.forall_mem_cons.mpr ⟨blank, ih rest⟩
      · obtain ⟨first, pieces, split⟩ :=
          List.exists_cons_of_ne_nil (List.splitOnP_ne_nil isBlank text)
        rw [fields, List.splitOnP_cons_eq_if_modifyHead, if_neg blank, split,
          List.modifyHead_cons] at none
        simp at none

theorem fields_append_gap_append {gap : List Char} (blank : IsGap gap) (notEmpty : gap ≠ [])
    (text behind : List Char) : fields (text ++ gap ++ behind) = fields text ++ fields behind := by
  obtain ⟨c, rest, rfl⟩ := List.exists_cons_of_ne_nil notEmpty
  rw [List.append_assoc, List.cons_append, fields_append_blank (blank c List.mem_cons_self),
    fields_gap_append fun d passed => blank d (List.mem_cons_of_mem _ passed)]

theorem fields_append_gap {gap : List Char} (blank : IsGap gap) (text : List Char) :
    fields (text ++ gap) = fields text := by
  rcases List.eq_nil_or_concat gap with rfl | ⟨rest, c, rfl⟩
  · rw [List.append_nil]
  · have parted := fields_append_gap_append blank (by simp) text []
    rw [List.append_nil] at parted
    rw [parted]
    exact List.append_nil _

/-! ## Trimming -/

theorem dropWhile_gap_append {gap text : List Char} (blank : IsGap gap)
    (head : ∀ c, text.head? = some c → isBlank c = false) :
    (gap ++ text).dropWhile isBlank = text := by
  rw [List.dropWhile_append_of_pos blank]
  cases text with
  | nil => rfl
  | cons c text => simp [head c rfl]

theorem trim_gap_append_append {gap gap' word : List Char} (blank : IsGap gap)
    (blank' : IsGap gap') (isWord : ∀ c ∈ word, isBlank c = false) (notEmpty : word ≠ []) :
    trim (gap ++ word ++ gap') = word := by
  have front : (gap ++ (word ++ gap')).dropWhile isBlank = word ++ gap' := by
    apply dropWhile_gap_append blank
    obtain ⟨first, rest, rfl⟩ := List.exists_cons_of_ne_nil notEmpty
    rintro c ⟨⟩
    exact isWord first List.mem_cons_self
  have back : (gap'.reverse ++ word.reverse).dropWhile isBlank = word.reverse := by
    apply dropWhile_gap_append
    · intro c passed
      exact blank' c (List.mem_reverse.mp passed)
    · intro c last
      exact isWord c (List.mem_reverse.mp (List.mem_of_mem_head? last))
  rw [trim, List.append_assoc, front, List.reverse_append, back, List.reverse_reverse]

theorem trim_of_word {word : List Char} (isWord : ∀ c ∈ word, isBlank c = false) :
    trim word = word := by
  cases word with
  | nil => rfl
  | cons c rest =>
      have noGap : IsGap [] := by decide
      have trimmed := trim_gap_append_append noGap noGap isWord (List.cons_ne_nil c rest)
      rwa [List.nil_append, List.append_nil] at trimmed

/-! ## Cuts -/

theorem before_append_mark {mark : Char} {text : List Char} (clear : mark ∉ text)
    (rest : List Char) : before mark (text ++ mark :: rest) = text := by
  rw [before, List.takeWhile_append_of_pos]
  · simp
  · intro c passed
    simpa using ne_of_mem_of_not_mem passed clear

theorem before_append_of_notMem {mark : Char} {text : List Char} (clear : mark ∉ text)
    (rest : List Char) : before mark (text ++ rest) = text ++ before mark rest := by
  rw [before, before, List.takeWhile_append_of_pos]
  intro c passed
  simpa using ne_of_mem_of_not_mem passed clear

theorem before_of_notMem {mark : Char} {text : List Char} (clear : mark ∉ text) :
    before mark text = text := by
  have whole := before_append_of_notMem clear []
  rw [List.append_nil] at whole
  rw [whole]
  exact List.append_nil text

theorem cut?_append_mark {mark : Char} {text : List Char} (clear : mark ∉ text)
    (rest : List Char) : cut? mark (text ++ mark :: rest) = some (text, rest) := by
  have drop : (text ++ mark :: rest).dropWhile (· != mark) = mark :: rest := by
    rw [List.dropWhile_append_of_pos]
    · simp
    · intro c passed
      simpa using ne_of_mem_of_not_mem passed clear
  rw [cut?, drop]
  simp only [before_append_mark clear]

theorem cut?_eq_some_iff {mark : Char} {text left right : List Char} :
    cut? mark text = some (left, right) ↔ text = left ++ mark :: right ∧ mark ∉ left := by
  constructor
  · intro cut
    have marked : mark ∈ text := by
      refine Decidable.byContradiction fun clear => ?_
      rw [cut?_eq_none_iff.mpr clear] at cut
      cases cut
    obtain ⟨front, rest, rfl, clear⟩ := List.eq_append_cons_of_mem marked
    rw [cut?_append_mark clear] at cut
    cases cut
    exact ⟨rfl, clear⟩
  · rintro ⟨rfl, clear⟩
    exact cut?_append_mark clear right

/-! ## Lines -/

theorem fields_before_dropReturn (mark : Char) (line : List Char) :
    fields (before mark (dropReturn line)) = fields (before mark line) := by
  rw [dropReturn]
  split
  · next last =>
      obtain ⟨front, rfl⟩ := List.getLast?_eq_some_iff.mp last
      rw [List.dropLast_concat]
      by_cases marked : mark ∈ front
      · obtain ⟨text, rest, rfl, clear⟩ := List.eq_append_cons_of_mem marked
        rw [List.append_assoc, List.cons_append, before_append_mark clear, before_append_mark clear]
      · have gap : IsGap (before mark ['\r']) := by
          intro c passed
          obtain rfl := List.mem_singleton.mp ((List.takeWhile_sublist _).subset passed)
          decide
        rw [before_append_of_notMem marked, before_of_notMem marked, fields_append_gap gap]
  · rfl

theorem mem_splitOn_of_mem_lines {line text : List Char} (listed : line ∈ lines text) :
    line ∈ text.splitOn '\n' ∨ line ++ ['\r'] ∈ text.splitOn '\n' := by
  rw [lines, List.mem_append, List.mem_map] at listed
  rcases listed with ⟨piece, inFront, rfl⟩ | last
  · have isPiece := List.dropLast_subset _ inFront
    rw [dropReturn]
    split
    · next returns =>
        obtain ⟨front, rfl⟩ := List.getLast?_eq_some_iff.mp returns
        rw [List.dropLast_concat]
        exact .inr isPiece
    · exact .inl isPiece
  · obtain ⟨isLast, _⟩ := Option.filter_eq_some_iff.mp (Option.mem_toList.mp last)
    exact .inl (List.mem_of_getLast? isLast)

/-- What is read off the lines of a text is read off the pieces between its line feeds, if carriage
returns and empty lines make no difference. -/
theorem filterMap_lines {β : Type} {read? : List Char → Option β}
    (noReturn : ∀ line, read? (dropReturn line) = read? line) (empty : read? [] = none)
    (text : List Char) : (lines text).filterMap read? = (text.splitOn '\n').filterMap read? := by
  rcases List.eq_nil_or_concat (text.splitOn '\n') with none | ⟨front, last, pieces⟩
  · exact absurd none (List.splitOn_ne_nil _ _)
  · have returns : (front.map dropReturn).filterMap read? = front.filterMap read? := by
      have same : read? ∘ dropReturn = read? := funext noReturn
      rw [List.filterMap_map, same]
    have lastLine : (Option.filter (fun line => !line.isEmpty) (some last)).toList.filterMap read? =
        [last].filterMap read? := by
      cases last with
      | nil => simp [empty]
      | cons c rest => rfl
    simp only [lines, pieces, List.concat_eq_append, List.dropLast_concat, List.getLast?_concat,
      List.filterMap_append, returns, lastLine]

theorem lines_append_newline_cons (text rest : List Char) :
    lines (text ++ '\n' :: rest) = (text.splitOn '\n').map dropReturn ++ lines rest := by
  have pieces : (text ++ '\n' :: rest).splitOn '\n' = text.splitOn '\n' ++ rest.splitOn '\n' :=
    List.splitOnP_append_cons _ _ (beq_self_eq_true '\n')
  have notEmpty : rest.splitOn '\n' ≠ [] := List.splitOn_ne_nil _ _
  have last : (text.splitOn '\n' ++ rest.splitOn '\n').getLast? =
      (rest.splitOn '\n').getLast? := by
    rw [List.getLast?_append, List.getLast?_eq_some_getLast notEmpty]
    rfl
  simp only [lines, pieces, last, List.dropLast_append_of_ne_nil notEmpty, List.map_append,
    List.append_assoc]

theorem lines_append_newline (text rest : List Char) :
    lines (text ++ '\n' :: rest) = lines (text ++ ['\n']) ++ lines rest := by
  rw [lines_append_newline_cons text rest, lines_append_newline_cons text [], lines_nil,
    List.append_nil]

/-- A text is divided into lines. Each of them ends in a line feed, with or without a carriage
return in front of it, but the last one may end with the text. -/
inductive Divides : List Char → List (List Char) → Prop where
  | nil : Divides [] []
  | last {line : List Char} (notEmpty : line ≠ []) (clear : '\n' ∉ line) : Divides line [line]
  | newline {line rest : List Char} {lines : List (List Char)} (clear : '\n' ∉ line)
      (plain : line.getLast? ≠ some '\r') (divides : Divides rest lines) :
      Divides (line ++ '\n' :: rest) (line :: lines)
  | returned {line rest : List Char} {lines : List (List Char)} (clear : '\n' ∉ line)
      (divides : Divides rest lines) : Divides (line ++ '\r' :: '\n' :: rest) (line :: lines)

theorem Divides.execution {text : List Char} {found : List (List Char)}
    (divides : Divides text found) : lines text = found := by
  induction divides with
  | nil => exact lines_nil
  | last notEmpty clear =>
      simp [lines, List.splitOn_eq_singleton clear, notEmpty]
  | newline clear plain _ ih =>
      simp [lines_append_newline_cons, List.splitOn_eq_singleton clear, dropReturn, plain, ih]
  | @returned line rest lines clear _ ih =>
      have clear' : '\n' ∉ line ++ ['\r'] := by simpa using clear
      have parts : line ++ '\r' :: '\n' :: rest = (line ++ ['\r']) ++ '\n' :: rest := by simp
      rw [parts, lines_append_newline_cons, List.splitOn_eq_singleton clear', ih]
      simp [dropReturn]

theorem divides_lines (text : List Char) : Divides text (lines text) := by
  induction size : text.length using Nat.strongRecOn generalizing text with
  | _ n ih =>
    by_cases marked : '\n' ∈ text
    · obtain ⟨line, rest, rfl, clear⟩ := List.eq_append_cons_of_mem marked
      have behind := ih rest.length (by simp at size; omega) rest rfl
      rw [lines_append_newline_cons, List.splitOn_eq_singleton clear, List.map_singleton,
        List.singleton_append, dropReturn]
      split
      · next returns =>
          obtain ⟨front, rfl⟩ := List.getLast?_eq_some_iff.mp returns
          rw [List.append_assoc, List.dropLast_concat]
          exact .returned (by simpa using clear) behind
      · next plain => exact .newline clear plain behind
    · cases text with
      | nil => exact lines_nil ▸ .nil
      | cons c rest =>
          rw [(Divides.last (List.cons_ne_nil c rest) marked).execution]
          exact .last (List.cons_ne_nil c rest) marked

theorem lines_eq_iff {text : List Char} {found : List (List Char)} :
    lines text = found ↔ Divides text found := by
  refine ⟨?_, Divides.execution⟩
  rintro rfl
  exact divides_lines text

end Sm83.Text
