import Sm83.Proofs.Names.Entries
import Sm83.Proofs.Text.Numeral

/-!
# Writing entries

Entries are written one in a row: a bank and an address in hexadecimal, joined by a colon, and the
name behind a gap. Blank rows and remarks may stand in between, and a remark may stand behind an
entry. What was written is read back, so the names in such a text mean what the entries say.
-/

namespace Sm83.SymbolFile

/-- An entry that a row can hold: for an address with a region, in a bank that does not put the
offset of a switchable address out of reach, with a name that is one word and no remark. -/
structure Entry.IsWritable (entry : Entry) : Prop where
  region : (Region.ofAddress? entry.address).isSome = true
  notEmpty : entry.name ≠ ""
  word : ∀ c ∈ entry.name.toList, Text.isBlank c = false ∧ c ≠ ';'
  bank : entry.bank < 0x100000000
  window : 0x4000 ≤ entry.address → entry.address < 0x8000 → entry.bank ≤ 0x3ffff

/-- The end of a row: nothing but blanks up to where a semicolon starts a remark, if one does. -/
def IsTail (text : List Char) : Prop :=
  Text.IsGap (Text.before ';' text)

instance (text : List Char) : Decidable (IsTail text) :=
  inferInstanceAs (Decidable (Text.IsGap _))

/-- What a row of a symbol file says: nothing, or one entry. -/
inductive Row : List Char → Option Entry → Prop where
  | remark {line : List Char} (tail : IsTail line) : Row line none
  | entry {indent bank address gap tail : List Char} (entry : Entry) (indented : Text.IsGap indent)
      (isBank : Text.Spells 16 entry.bank bank) (isAddress : Text.Spells 16 entry.address address)
      (isGap : Text.IsGap gap) (wide : gap ≠ []) (isTail : IsTail tail) :
      Row (indent ++ (bank ++ ':' :: address) ++ gap ++ (entry.name.toList ++ tail)) (some entry)

/-- A text writes entries: each of its rows says nothing or one entry, and the entries are these. -/
def Writes (text : String) (entries : List Entry) : Prop :=
  ∃ said, List.Forall₂ Row (text.toList.splitOn '\n') said ∧ said.reduceOption = entries

/-! ## Reading a row back -/

variable {entry : Entry}

theorem Entry.IsWritable.address_lt (writable : entry.IsWritable) : entry.address < 0x10000 := by
  obtain ⟨region, inside⟩ := Option.isSome_iff_exists.mp writable.region
  exact Region.lt_of_ofAddress? inside

theorem Entry.IsWritable.flatOffset_lt (writable : entry.IsWritable) :
    Bank.flatOffset entry.address entry.bank < 0x100000000 :=
  Bank.flatOffset_lt writable.address_lt writable.window

theorem place?_of_spells {bank address : List Char} (writable : entry.IsWritable)
    (isBank : Text.Spells 16 entry.bank bank) (isAddress : Text.Spells 16 entry.address address) :
    place? (bank ++ ':' :: address) = some (entry.bank, entry.address) := by
  have clear : ':' ∉ bank := fun written =>
    (Text.clear_of_spells (by decide) (by decide) (by decide) isBank ':' written).2 rfl
  have bankRead : Text.number? 16 bankLimit bank = some entry.bank :=
    Text.number?_of_spells (by decide) (by decide) writable.bank isBank
  have addressRead : Text.number? 16 addressLimit address = some entry.address :=
    Text.number?_of_spells (by decide) (by decide) writable.address_lt isAddress
  rw [place?, Text.cut?_append_mark clear]
  simp [bankRead, addressRead]

theorem fields_of_row {indent place gap name tail : List Char} (indented : Text.IsGap indent)
    (isPlace : ∀ c ∈ place, Text.isBlank c = false ∧ c ≠ ';') (somePlace : place ≠ [])
    (isGap : Text.IsGap gap) (wide : gap ≠ [])
    (isName : ∀ c ∈ name, Text.isBlank c = false ∧ c ≠ ';') (someName : name ≠ [])
    (isTail : IsTail tail) :
    Text.fields (Text.before ';' (indent ++ place ++ gap ++ (name ++ tail))) = [place, name] := by
  have clearGap {text : List Char} (blank : Text.IsGap text) : ';' ∉ text := by
    intro written
    exact absurd (blank ';' written) (by decide)
  have clearWord {text : List Char} (word : ∀ c ∈ text, Text.isBlank c = false ∧ c ≠ ';') :
      ';' ∉ text := fun written => (word ';' written).2 rfl
  have clear : ';' ∉ indent ++ place ++ gap ++ name := by
    simp [clearGap indented, clearWord isPlace, clearGap isGap, clearWord isName]
  rw [← List.append_assoc, Text.before_append_of_notMem clear, Text.fields_append_gap isTail,
    Text.fields_append_gap_append isGap wide, Text.fields_gap_append indented,
    Text.fields_of_word (fun c written => (isPlace c written).1) somePlace,
    Text.fields_of_word (fun c written => (isName c written).1) someName]
  rfl

theorem readLine_of_row {line : List Char} (row : Row line (some entry))
    (writable : entry.IsWritable) : readLine line = .entry entry := by
  cases row with
  | @entry indent bank address gap tail entry indented isBank isAddress isGap wide isTail =>
    have digit {n : Nat} {text : List Char} (spells : Text.Spells 16 n text) :
        ∀ c ∈ text, Text.isBlank c = false ∧ c ≠ ';' :=
      Text.clear_of_spells (by decide) (by decide) (by decide) spells
    have isPlace (c : Char) (written : c ∈ bank ++ ':' :: address) :
        Text.isBlank c = false ∧ c ≠ ';' := by
      rcases List.mem_append.mp written with inBank | rest
      · exact digit isBank c inBank
      · rcases List.mem_cons.mp rest with rfl | inAddress
        · decide
        · exact digit isAddress c inAddress
    have someName : entry.name.toList ≠ [] := by simp [writable.notEmpty]
    rw [readLine, fields_of_row indented isPlace (by simp) isGap wide writable.word someName isTail]
    simp [place?_of_spells writable isBank isAddress, writable.region, String.ofList_toList]

theorem readLine_of_remark {line : List Char} (row : Row line none) : readLine line = .nothing := by
  cases row with
  | remark tail => rw [readLine, Text.fields_of_gap tail]

/-! ## Reading a text back -/

theorem readLine_dropReturn (line : List Char) :
    readLine (Text.dropReturn line) = readLine line := by
  rw [readLine, readLine, Text.fields_before_dropReturn]

theorem said?_dropReturn (line : List Char) : said? (Text.dropReturn line) = said? line := by
  rw [said?, said?, readLine_dropReturn]

theorem said?_of_row {line : List Char} {said : Option Entry} (row : Row line said)
    (writable : ∀ entry ∈ said, entry.IsWritable) : said? line = said.map .entry := by
  cases said with
  | none => simp [said?, readLine_of_remark row]
  | some entry => simp [said?, readLine_of_row row (writable entry rfl)]

theorem filterMap_said?_of_rows {lines : List (List Char)} {said : List (Option Entry)}
    (rows : List.Forall₂ Row lines said)
    (writable : ∀ entry ∈ said.reduceOption, entry.IsWritable) :
    lines.filterMap said? = said.reduceOption.map .entry := by
  induction rows with
  | nil => rfl
  | @cons line first lines said row rows ih =>
      have read := said?_of_row row
      cases first with
      | none =>
          rw [List.filterMap_cons, read (by simp), List.reduceOption_cons_of_none]
          exact ih writable
      | some entry =>
          rw [List.reduceOption_cons_of_some] at writable ⊢
          have here : ∀ other ∈ some entry, other.IsWritable := by
            rintro other ⟨⟩
            exact writable entry List.mem_cons_self
          have later := ih fun other listed => writable other (List.mem_cons_of_mem _ listed)
          rw [List.filterMap_cons, read here, List.map_cons, ← later]
          rfl

theorem lists_of_writes {text : String} {entries : List Entry} (writes : Writes text entries)
    (writable : ∀ entry ∈ entries, entry.IsWritable) : Lists text entries := by
  obtain ⟨said, rows, rfl⟩ := writes
  have empty : said? [] = none := by decide
  rw [Lists, readings, Text.filterMap_lines said?_dropReturn empty]
  exact filterMap_said?_of_rows rows writable

end Sm83.SymbolFile

/-! ## What was written -/

namespace Sm83

open SymbolFile (Entry Row Writes)

/-- A text of written entries is accepted, and its names mean what the entries say: of several
entries for a place on the cartridge the first one counts, of several banks of other memory the
lowest one, and of several places of a name the last one. -/
theorem Names.means_of_writes {text : String} {entries : List Entry} (writes : Writes text entries)
    (writable : ∀ entry ∈ entries, entry.IsWritable) :
    ∃ names, ofSymbols text = .ok names ∧ names.Means entries ∧
      ∀ entry ∈ entries, Bank.flatOffset entry.address entry.bank < 0x100000000 := by
  refine ⟨ofEntries entries, ?_, means_ofEntries entries, ?_⟩
  · exact ofSymbols_of_lists (SymbolFile.lists_of_writes writes writable)
  · exact fun entry listed => (writable entry listed).flatOffset_lt

/-- A place with two names, and one in other memory. -/
def writtenEntries : List Entry :=
  [⟨1, 0x4000, "First"⟩, ⟨1, 0x4000, "Second"⟩, ⟨2, 0xc000, "wByte"⟩]

/-- These entries in rows, with a remark, a blank row and a remark behind an entry. -/
def writtenText : String :=
  "; remark\n01:4000 First\n\n1:4000\tSecond ; again\n02:C000 wByte"

theorem writes_writtenText : Writes writtenText writtenEntries := by
  refine ⟨[none, some ⟨1, 0x4000, "First"⟩, none, some ⟨1, 0x4000, "Second"⟩,
    some ⟨2, 0xc000, "wByte"⟩], ?_, rfl⟩
  have rows : writtenText.toList.splitOn '\n' = ["; remark".toList, "01:4000 First".toList, [],
      "1:4000\tSecond ; again".toList, "02:C000 wByte".toList] := by
    decide
  have first := @Row.entry [] "01".toList "4000".toList " ".toList [] ⟨1, 0x4000, "First"⟩
    (by decide) ⟨1, by decide⟩ ⟨0, by decide⟩ (by decide) (by decide) (by decide)
  have second := @Row.entry [] "1".toList "4000".toList "\t".toList " ; again".toList
    ⟨1, 0x4000, "Second"⟩ (by decide) ⟨0, by decide⟩ ⟨0, by decide⟩ (by decide) (by decide)
    (by decide)
  have third := @Row.entry [] "02".toList "C000".toList " ".toList [] ⟨2, 0xc000, "wByte"⟩
    (by decide) ⟨1, by decide⟩ ⟨0, by decide⟩ (by decide) (by decide) (by decide)
  rw [rows]
  exact .cons (.remark (by decide)) (.cons first (.cons (.remark (by decide))
    (.cons second (.cons third .nil))))

theorem isWritable_writtenEntries : ∀ entry ∈ writtenEntries, entry.IsWritable := by
  simp only [writtenEntries, List.forall_mem_cons]
  refine ⟨?_, ?_, ?_, by simp⟩
  · exact ⟨by decide, by decide, by simp [Text.isBlank], by decide, by decide⟩
  · exact ⟨by decide, by decide, by simp [Text.isBlank], by decide, by decide⟩
  · exact ⟨by decide, by decide, by simp [Text.isBlank], by decide, by decide⟩

theorem Names.means_of_writes_named_twice :
    Writes writtenText writtenEntries ∧ (∀ entry ∈ writtenEntries, entry.IsWritable) ∧
      ∃ names, ofSymbols writtenText = .ok names ∧ names.Means writtenEntries ∧
        ∀ entry ∈ writtenEntries, Bank.flatOffset entry.address entry.bank < 0x100000000 :=
  ⟨writes_writtenText, isWritable_writtenEntries,
    means_of_writes writes_writtenText isWritable_writtenEntries⟩

end Sm83
