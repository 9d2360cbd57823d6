import Sm83.Position
import Sm83.Proofs.Names.Entries
import Sm83.Proofs.Names.Files
import Sm83.Proofs.Text.Numeral

/-!
# Three ways to write a position

An offset is written as the bank and the local address that a header shows, as the offset itself
behind one of the prefixes, and as the one name that a symbol file has for it. `resolve` takes all
three back to the offset.
-/

namespace Sm83.Position

variable {names : Names} {offset : Nat}

/-- What may lead the digits of a number. -/
def prefixes : List (List Char) :=
  [['0', 'x'], ['0', 'X'], ['$'], []]

/-! ## Numbers -/

theorem digitsOf_append {lead digits : List Char} (isLead : lead ∈ prefixes)
    (isNumeral : Text.digits? 16 digits = some offset) : digitsOf (lead ++ digits) = digits := by
  have noLetter {c : Char} (noDigit : Text.digitValue? c = none) : c ∉ digits :=
    Text.notMem_of_digits? isNumeral noDigit
  simp only [prefixes, List.mem_cons, List.not_mem_nil, or_false] at isLead
  rcases isLead with rfl | rfl | rfl | rfl
  · rfl
  · rfl
  · rfl
  · rw [List.nil_append]
    unfold digitsOf
    split
    · exact (noLetter (by decide) (List.mem_cons_of_mem _ List.mem_cons_self)).elim
    · exact (noLetter (by decide) (List.mem_cons_of_mem _ List.mem_cons_self)).elim
    · exact (noLetter (by decide) List.mem_cons_self).elim
    · rfl

theorem clear_of_mem_prefixes {lead : List Char} (isLead : lead ∈ prefixes) :
    ∀ c ∈ lead, Text.isBlank c = false ∧ c ≠ ':' := by
  simp only [prefixes, List.mem_cons, List.not_mem_nil, or_false] at isLead
  rcases isLead with rfl | rfl | rfl | rfl <;> simp [Text.isBlank]

theorem clear_append {lead digits : List Char} (isLead : lead ∈ prefixes)
    (spells : Text.Spells 16 offset digits) :
    ∀ c ∈ lead ++ digits, Text.isBlank c = false ∧ c ≠ ':' := by
  intro c written
  rcases List.mem_append.mp written with inLead | inDigits
  · exact clear_of_mem_prefixes isLead c inLead
  · exact Text.clear_of_spells (by decide) (by decide) (by decide) spells c inDigits

theorem number?_append {lead digits : List Char} (isLead : lead ∈ prefixes)
    (inLimit : offset < numberLimit) (spells : Text.Spells 16 offset digits) :
    number? (lead ++ digits) = some offset := by
  have isWord : Text.IsWord (lead ++ digits) := fun c written =>
    (clear_append isLead spells c written).1
  have read := Text.digits?_of_spells (by decide) (by decide) spells
  rw [number?, Text.trim_of_word isWord, digitsOf_append isLead read]
  exact Text.number?_of_spells (by decide) (by decide) inLimit spells

theorem number?_hex (inLimit : offset < numberLimit) :
    number? (Text.hex offset).toList = some offset := by
  have noLead : [] ∈ prefixes := by decide
  have read := number?_append noLead inLimit (Text.spells_hex offset)
  rwa [List.nil_append] at read

/-! ## Texts between gaps -/

theorem resolve_of_offset? {gap gap' word : List Char} (below : offset < Bank.capacity)
    (blank : Text.IsGap gap) (blank' : Text.IsGap gap') (isWord : Text.IsWord word)
    (notEmpty : word ≠ []) (written : offset? names word = some offset) :
    resolve names (String.ofList (gap ++ word ++ gap')) = .ok offset := by
  rw [resolve, String.toList_ofList, Text.trim_gap_append_append blank blank' isWord notEmpty]
  simp [notEmpty, written, below]

theorem resolve_word {name : String} (below : offset < Bank.capacity)
    (isWord : Text.IsWord name.toList) (notEmpty : name.toList ≠ [])
    (written : offset? names name.toList = some offset) : resolve names name = .ok offset := by
  have noGap : Text.IsGap [] := by decide
  have resolved := resolve_of_offset? below noGap noGap isWord notEmpty written
  rwa [List.nil_append, List.append_nil, String.ofList_toList] at resolved

/-! ## The pair in a header -/

/-- The bank and the local address of an offset, as the header of a routine shows them. -/
def pair (offset : Nat) : String :=
  Text.hex (Bank.ofOffset offset) ++ ":" ++ Text.hex (Bank.localAddress offset)

theorem eq_pair_of_remark {text : String}
    (shown : Bank.remark offset = " ; " ++ Text.hex offset ++ " (" ++ text ++ ")") :
    text = pair offset := by
  have same : " ; " ++ Text.hex offset ++ " (" ++ pair offset ++ ")" =
      " ; " ++ Text.hex offset ++ " (" ++ text ++ ")" := by
    rw [← shown, Bank.remark, pair]
    simp only [String.append_assoc]
  simpa using same.symm

theorem bank_add_local (offset : Nat) :
    Bank.ofOffset offset * Bank.size + Bank.localAddress offset % Bank.size = offset := by
  unfold Bank.localAddress Bank.ofOffset Bank.windowStart Bank.size
  split <;> omega

theorem resolve_pair (names : Names) (below : offset < Bank.capacity) :
    resolve names (pair offset) = .ok offset := by
  have clear {n : Nat} : ∀ c ∈ (Text.hex n).toList, Text.isBlank c = false ∧ c ≠ ':' :=
    Text.clear_of_spells (by decide) (by decide) (by decide) (Text.spells_hex n)
  have limits : Bank.ofOffset offset < numberLimit ∧ Bank.localAddress offset < numberLimit := by
    have low := Bank.localAddress_lt offset
    unfold Bank.windowEnd at low
    unfold Bank.ofOffset Bank.size numberLimit
    unfold Bank.capacity at below
    have limit : UInt32.size = 4294967296 := rfl
    omega
  have letters : (pair offset).toList = (Text.hex (Bank.ofOffset offset)).toList ++
      ':' :: (Text.hex (Bank.localAddress offset)).toList := by
    simp [pair]
  have isWord : Text.IsWord (pair offset).toList := by
    rw [letters]
    intro c written
    rcases List.mem_append.mp written with inBank | rest
    · exact (clear c inBank).1
    · rcases List.mem_cons.mp rest with rfl | inAddress
      · decide
      · exact (clear c inAddress).1
  have written : offset? names (pair offset).toList = some offset := by
    rw [letters, offset?, Text.cut?_append_mark fun colon => (clear ':' colon).2 rfl]
    simp [number?_hex limits.1, number?_hex limits.2, bank_add_local]
  exact resolve_word below isWord (by simp [letters]) written

/-! ## Offsets and names -/

theorem resolve_number {lead digits gap gap' : List Char} (below : offset < Bank.capacity)
    (blank : Text.IsGap gap) (blank' : Text.IsGap gap') (isLead : lead ∈ prefixes)
    (spells : Text.Spells 16 offset digits)
    (noName : names.offset? (String.ofList (lead ++ digits)) = none) :
    resolve names (String.ofList (gap ++ (lead ++ digits) ++ gap')) = .ok offset := by
  have clear := clear_append isLead spells
  have inLimit : offset < numberLimit := Nat.lt_trans below (by decide)
  apply resolve_of_offset? below blank blank'
  · exact fun c written => (clear c written).1
  · exact List.append_ne_nil_of_right_ne_nil _
      (Text.ne_nil_of_spells (by decide) (by decide) spells)
  · have noColon : Text.cut? ':' (lead ++ digits) = none :=
      Text.cut?_eq_none_iff.mpr fun colon => (clear ':' colon).2 rfl
    rw [offset?, noColon, noName, number?_append isLead inLimit spells]
    rfl

theorem resolve_name {name : String} (below : offset < Bank.capacity)
    (isWord : Text.IsWord name.toList) (notEmpty : name.toList ≠ []) (noColon : ':' ∉ name.toList)
    (entered : names.offset? name = some offset) : resolve names name = .ok offset := by
  apply resolve_word below isWord notEmpty
  rw [offset?, Text.cut?_eq_none_iff.mpr noColon, String.ofList_toList, entered]
  rfl

theorem word_of_lists {text : String} {entries : List SymbolFile.Entry} {entry : SymbolFile.Entry}
    (lists : SymbolFile.Lists text entries) (listed : entry ∈ entries) :
    Text.IsWord entry.name.toList ∧ entry.name.toList ≠ [] := by
  have read : .entry entry ∈ SymbolFile.readings text := by
    rw [lists]
    exact List.mem_map_of_mem listed
  obtain ⟨line, -, said⟩ := List.mem_filterMap.mp read
  have isEntry : SymbolFile.readLine line = .entry entry := by
    rw [SymbolFile.said?] at said
    split at said
    · cases said
    · exact Option.some.inj said
  exact ⟨Names.isWord_of_entry isEntry, Names.notEmpty_of_entry isEntry⟩

theorem resolve_only_entry {text name : String} {entries : List SymbolFile.Entry}
    (below : offset < Bank.capacity) (lists : SymbolFile.Lists text entries)
    (noColon : ':' ∉ name.toList)
    (only : (entries.filter fun entry => entry.liesIn [.rom] && entry.name == name) =
      [⟨Bank.ofOffset offset, Bank.localAddress offset, name⟩]) :
    ∃ names, Names.ofSymbols text = .ok names ∧ resolve names name = .ok offset := by
  refine ⟨.ofEntries entries, Names.ofSymbols_of_lists lists, ?_⟩
  have listed : (⟨Bank.ofOffset offset, Bank.localAddress offset, name⟩ : SymbolFile.Entry) ∈
      entries := by
    apply List.mem_of_mem_filter
    rw [only]
    exact List.mem_cons_self
  have isWord := word_of_lists lists listed
  have last : SymbolFile.lastNamed? entries name =
      some ⟨Bank.ofOffset offset, Bank.localAddress offset, name⟩ := by
    rw [SymbolFile.lastNamed?, ← List.head?_filter, List.filter_reverse, only]
    rfl
  apply resolve_name below isWord.1 isWord.2 noColon
  rw [Names.offset?_ofEntries, last, Option.map_some, Bank.wrappedOffset,
    Bank.flatOffset_localAddress, Nat.mod_eq_of_lt (Nat.lt_trans below (by decide))]

/-! ## All of them -/

/-- The ways to write a position lead to the same offset: its bank and its local address stand for
it, the pair in the header of a routine is read as it whatever names there are, so is the offset
itself behind any prefix unless a name is spelled like that, and so is a name that is entered on the
cartridge for that place alone. -/
theorem resolve_agrees {offset : Nat} (below : offset < 0x200000) :
    Bank.flatOffset (Bank.localAddress offset) (Bank.ofOffset offset) = offset ∧
    (∀ names text,
      Bank.remark offset = " ; " ++ Text.hex offset ++ " (" ++ text ++ ")" →
        resolve names text = .ok offset) ∧
    (∀ names gap lead digits gap', Text.IsGap gap → Text.IsGap gap' → lead ∈ prefixes →
      Text.Spells 16 offset digits → names.offset? (String.ofList (lead ++ digits)) = none →
        resolve names (String.ofList (gap ++ (lead ++ digits) ++ gap')) = .ok offset) ∧
    ∀ text entries name, SymbolFile.Lists text entries → ':' ∉ name.toList →
      (entries.filter fun entry => entry.liesIn [.rom] && entry.name == name) =
        [⟨Bank.ofOffset offset, Bank.localAddress offset, name⟩] →
        ∃ names, Names.ofSymbols text = .ok names ∧ resolve names name = .ok offset := by
  refine ⟨Bank.flatOffset_localAddress offset, ?_, ?_, ?_⟩
  · intro names text shown
    rw [eq_pair_of_remark shown]
    exact resolve_pair names below
  · intro names gap lead digits gap' blank blank' isLead spells noName
    exact resolve_number below blank blank' isLead spells noName
  · intro text entries name lists noColon only
    exact resolve_only_entry below lists noColon only

/-- The last byte of a full cartridge. -/
theorem resolve_agrees_at_end :
    0x1fffff < 0x200000 ∧
    Bank.flatOffset (Bank.localAddress 0x1fffff) (Bank.ofOffset 0x1fffff) = 0x1fffff ∧
    resolve .empty "7f:7fff" = .ok 0x1fffff ∧
    resolve .empty " $1FfFFF\t" = .ok 0x1fffff ∧
    ∃ names, Names.ofSymbols "7f:7fff Last" = .ok names ∧ resolve names "Last" = .ok 0x1fffff := by
  obtain ⟨back, header, number, name⟩ := @resolve_agrees 0x1fffff (by decide)
  refine ⟨by decide, back, ?_, ?_, ?_⟩
  · exact header .empty "7f:7fff" (by decide)
  · have noName : Names.empty.offset? (String.ofList "$1FfFFF".toList) = none := by
      simp [Names.offset?, Names.empty]
    exact number .empty " ".toList "$".toList "1FfFFF".toList "\t".toList (by decide) (by decide)
      (by decide) ⟨0, by decide⟩ noName
  · exact name "7f:7fff Last" [⟨0x7f, 0x7fff, "Last"⟩] "Last" (by decide) (by decide) (by decide)

end Sm83.Position
