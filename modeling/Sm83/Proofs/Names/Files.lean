import Mathlib
import Sm83.Names.Constants

/-!
# Names that files give

A file gives names as fields of its lines, so a name holds no blank. That is kept whichever files
are read and in which order, and a row of a listing that shows a name stays one row.
-/

namespace Sm83

/-! ## Words -/

/-- A text without blanks. -/
def Text.IsWord (text : List Char) : Prop :=
  ∀ c ∈ text, isBlank c = false

theorem Text.isWord_of_mem_splitOnP {text piece : List Char}
    (passed : piece ∈ text.splitOnP isBlank) : IsWord piece := by
  induction text generalizing piece with
  | nil =>
      obtain rfl : piece = [] := by simpa using passed
      simp [IsWord]
  | cons c text ih =>
      rw [List.splitOnP_cons_eq_if_modifyHead] at passed
      split at passed
      · rcases List.mem_cons.mp passed with rfl | later
        · simp [IsWord]
        · exact ih later
      · next letter =>
          obtain ⟨first, rest, pieces⟩ :=
            List.exists_cons_of_ne_nil (List.splitOnP_ne_nil isBlank text)
          rw [pieces, List.modifyHead_cons] at passed
          rw [pieces] at ih
          rcases List.mem_cons.mp passed with rfl | later
          · intro d written
            rcases List.mem_cons.mp written with rfl | inFirst
            · simpa using letter
            · exact ih List.mem_cons_self d inFirst
          · exact ih (List.mem_cons_of_mem _ later)

theorem Text.isWord_of_mem_fields {text field : List Char} (passed : field ∈ fields text) :
    IsWord field :=
  isWord_of_mem_splitOnP (List.mem_of_mem_filter passed)

/-! ## Names as words -/

/-- All names in a map are words. -/
def Names.WordsIn {place : Type} [BEq place] [Hashable place] [EquivBEq place]
    [LawfulHashable place] (map : Std.ExtHashMap place String) : Prop :=
  ∀ (here : place) (name : String), map[here]? = some name → Text.IsWord name.toList

/-- All names that have been entered are words. -/
structure Names.Words (names : Names) : Prop where
  rom : WordsIn names.rom
  unbanked : WordsIn names.unbanked
  banked : WordsIn names.banked

namespace Names

section

variable {place : Type} [BEq place] [Hashable place] [EquivBEq place] [LawfulHashable place]
  {map : Std.ExtHashMap place String} {name : String}

theorem WordsIn.insert (words : WordsIn map) (isWord : Text.IsWord name.toList) (here : place) :
    WordsIn (map.insert here name) := by
  intro there found entered
  rw [Std.ExtHashMap.getElem?_insert] at entered
  split at entered
  · cases entered
    exact isWord
  · exact words there found entered

theorem WordsIn.insertIfNew (words : WordsIn map) (isWord : Text.IsWord name.toList)
    (here : place) : WordsIn (map.insertIfNew here name) := by
  intro there found entered
  rw [Std.ExtHashMap.getElem?_insertIfNew] at entered
  split at entered
  · cases entered
    exact isWord
  · exact words there found entered

end

variable {names : Names} {name : String}

theorem words_empty : Words empty := by
  constructor <;> simp [WordsIn, empty]

theorem Words.at? (words : names.Words) {address bank : Nat}
    (found : names.at? address bank = some name) : Text.IsWord name.toList := by
  have entered := (Option.filter_eq_some_iff.mp found).1
  rw [entered?] at entered
  split at entered
  · cases entered
  · exact words.rom _ _ entered
  · obtain ⟨lowest, _, entered⟩ := Option.bind_eq_some_iff.mp entered
    exact words.banked _ _ entered
  · obtain ⟨lowest, _, entered⟩ := Option.bind_eq_some_iff.mp entered
    exact words.banked _ _ entered
  all_goals exact words.unbanked _ _ entered

theorem Words.add (words : names.Words) (precedence : Precedence) (bank address : Nat)
    (isWord : Text.IsWord name.toList) :
    (names.add precedence bank address name).Words := by
  obtain ⟨rom, unbanked, banked⟩ := words
  unfold Names.add
  split
  · exact ⟨rom, unbanked, banked⟩
  · exact ⟨rom.insertIfNew isWord _, unbanked, banked⟩
  · exact ⟨rom, unbanked, banked.insertIfNew isWord _⟩
  · exact ⟨rom, unbanked, banked.insertIfNew isWord _⟩
  all_goals
    refine ⟨rom, ?_, banked⟩
    cases precedence with
    | earlier => exact unbanked.insertIfNew isWord address
    | later => exact unbanked.insert isWord address

/-! ## Reading files -/

theorem field_of_entry {line : List Char} {entry : SymbolFile.Entry}
    (read : SymbolFile.readLine line = .entry entry) :
    entry.name.toList ∈ Text.fields (Text.before ';' line) := by
  rw [SymbolFile.readLine] at read
  split at read
  · cases read
  · cases read
  · next place name rest fields =>
      rw [fields]
      split at read
      · cases read
      · split at read
        · cases read
          simp
        · cases read

theorem isWord_of_entry {line : List Char} {entry : SymbolFile.Entry}
    (read : SymbolFile.readLine line = .entry entry) : Text.IsWord entry.name.toList :=
  Text.isWord_of_mem_fields (field_of_entry read)

theorem notEmpty_of_entry {line : List Char} {entry : SymbolFile.Entry}
    (read : SymbolFile.readLine line = .entry entry) : entry.name.toList ≠ [] :=
  Text.ne_nil_of_mem_fields (field_of_entry read)

theorem Words.addLine (words : names.Words) {line : List Char × Nat} {after : Names}
    (read : SymbolFile.addLine names line = .ok after) : after.Words := by
  rw [SymbolFile.addLine] at read
  split at read
  · cases read
    exact words
  · next entry =>
      cases read
      exact words.add .earlier _ _ (isWord_of_entry entry)
  · cases read
  · cases read

theorem Words.addLines {lines : List (List Char × Nat)} {after : Names} (words : names.Words)
    (read : lines.foldlM SymbolFile.addLine names = .ok after) : after.Words := by
  induction lines generalizing names with
  | nil =>
      cases read
      exact words
  | cons line lines ih =>
      rw [List.foldlM_cons] at read
      cases added : SymbolFile.addLine names line with
      | error error =>
          rw [added] at read
          cases read
      | ok next =>
          rw [added] at read
          exact ih (words.addLine added) read

theorem mem_of_definition? {fields value : List (List Char)} {word : List Char}
    (defines : Constants.definition? fields = some (word, value)) : word ∈ fields := by
  unfold Constants.definition? at defines
  split at defines
  · split at defines
    · cases defines
      exact List.mem_cons_self
    · cases defines
  · cases defines

theorem isWord_of_split? {line word value : List Char}
    (read : Constants.split? line = some (word, value)) : Text.IsWord word := by
  obtain ⟨⟨word, fields⟩, defines, same⟩ := Option.map_eq_some_iff.mp read
  cases same
  have isPart := mem_of_definition? defines
  have isField : word ∈ Text.fields (Text.before ';' line) := by
    split at isPart
    · next rest parts =>
        rw [parts]
        split at isPart
        · exact List.mem_cons_of_mem _ isPart
        · exact isPart
    · cases isPart
  exact Text.isWord_of_mem_fields isField

theorem isWord_of_constant {line : List Char} {region : Region} {address : Nat}
    (read : (Constants.readLine line).inRegion? region = some (name, address)) :
    Text.IsWord name.toList := by
  rw [Constants.readLine] at read
  split at read
  · cases read
  · next word value parts =>
      split at read
      · cases read
      · simp only [Constants.Reading.inRegion?] at read
        split at read
        · cases read
          rw [String.toList_ofList]
          exact isWord_of_split? parts
        · cases read

theorem Words.addConstants (words : names.Words) (region : Region) (text : String) :
    (names.addConstants region text).names.Words := by
  have isWord : ∀ constant ∈ Constants.inRegion region text, Text.IsWord constant.1.toList := by
    intro constant entered
    obtain ⟨line, _, read⟩ := List.mem_filterMap.mp entered
    exact isWord_of_constant read
  rw [names_addConstants]
  generalize Constants.inRegion region text = constants at isWord
  induction constants generalizing names with
  | nil => exact words
  | cons constant constants ih =>
      apply ih (words.add .later 0 constant.2 (isWord constant List.mem_cons_self))
      exact fun other entered => isWord other (List.mem_cons_of_mem _ entered)

/-- Names that have been read from files: from a symbol file or from none, and then from files of
constants. -/
inductive FromFiles : Names → Prop where
  | none : FromFiles .empty
  | symbols {text : String} {names : Names} (read : ofSymbols text = .ok names) : FromFiles names
  | constants {names : Names} (region : Region) (text : String) (earlier : FromFiles names) :
      FromFiles (names.addConstants region text).names

theorem FromFiles.words (read : FromFiles names) : names.Words := by
  induction read with
  | none => exact words_empty
  | symbols read => exact words_empty.addLines read
  | constants region text _ ih => exact ih.addConstants region text

end Names

end Sm83
