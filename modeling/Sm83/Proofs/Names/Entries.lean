import Mathlib
import Sm83.Proofs.Text.Fields
import Sm83.Names.SymbolFile

/-!
# What entries name

A symbol file comes to a list of entries, and adding them one by one fills the maps of names. What
stays of several entries for one place differs by region: the first one does, where banks count the
first one of the lowest bank, and the offset of a name is that of its last entry. `Names.Means` says
so of the looking up, and `means_ofEntries` holds for every list of entries.
-/

namespace Sm83

/-! ## Maps filled entry by entry -/

namespace SymbolFile

/-- An entry is for an address in one of some regions. -/
def Entry.liesIn (regions : List Region) (entry : Entry) : Bool :=
  (Region.ofAddress? entry.address).any (· ∈ regions)

/-- The bank and the address of an entry. -/
def Entry.place (entry : Entry) : Nat × Nat :=
  (entry.bank, entry.address)

section

variable {key : Type} [BEq key] [LawfulBEq key] [Hashable key] [LawfulHashable key]

/-- A map to which some of the entries add their names, each unless there is one under its key. -/
def fill (takes : Entry → Bool) (keyOf : Entry → key) (map : Std.ExtHashMap key String)
    (entries : List Entry) : Std.ExtHashMap key String :=
  entries.foldl (fun map entry =>
    if takes entry then map.insertIfNew (keyOf entry) entry.name else map) map

/-- The first entry under a key counts. -/
theorem getElem?_fill (takes : Entry → Bool) (keyOf : Entry → key)
    (map : Std.ExtHashMap key String) (entries : List Entry) (here : key) :
    (fill takes keyOf map entries)[here]? =
      map[here]?.or ((entries.find? fun entry => takes entry && keyOf entry == here).map
        Entry.name) := by
  induction entries generalizing map with
  | nil => simp [fill]
  | cons entry entries ih =>
      rw [fill, List.foldl_cons, ← fill, ih, List.find?_cons]
      cases takes entry with
      | false => simp
      | true =>
          simp only [if_true, Std.ExtHashMap.getElem?_insertIfNew, Bool.true_and,
            Std.ExtHashMap.mem_iff_isSome_getElem?]
          cases same : keyOf entry == here with
          | false => simp
          | true =>
              obtain rfl := eq_of_beq same
              cases map[keyOf entry]? <;> simp

theorem getElem?_fill_of_takes {takes : Entry → Bool} {keyOf : Entry → key} {here : key}
    (taken : ∀ entry, keyOf entry = here → takes entry = true) (entries : List Entry) :
    (fill takes keyOf ∅ entries)[here]? =
      (entries.find? fun entry => keyOf entry == here).map Entry.name := by
  have same : (fun entry => takes entry && keyOf entry == here) = fun entry =>
      keyOf entry == here := by
    funext entry
    by_cases isHere : keyOf entry = here
    · simp [taken entry isHere]
    · simp [isHere]
  rw [getElem?_fill, same, Std.ExtHashMap.getElem?_empty, Option.none_or]

theorem fill_append_singleton (takes : Entry → Bool) (keyOf : Entry → key)
    (map : Std.ExtHashMap key String) (entries : List Entry) (entry : Entry) :
    fill takes keyOf map (entries ++ [entry]) =
      if takes entry then (fill takes keyOf map entries).insertIfNew (keyOf entry) entry.name
      else fill takes keyOf map entries := by
  rw [fill, List.foldl_append, List.foldl_cons, List.foldl_nil, ← fill]

theorem mem_fill_empty_iff (takes : Entry → Bool) (keyOf : Entry → key) (entries : List Entry)
    (here : key) :
    here ∈ fill takes keyOf ∅ entries ↔ here ∈ (entries.filter takes).map keyOf := by
  rw [Std.ExtHashMap.mem_iff_isSome_getElem?, getElem?_fill]
  simp [List.find?_isSome, and_assoc]

theorem size_fill_empty [DecidableEq key] (takes : Entry → Bool) (keyOf : Entry → key)
    (entries : List Entry) :
    (fill takes keyOf ∅ entries).size = ((entries.filter takes).map keyOf).toFinset.card := by
  induction entries using List.reverseRecOn with
  | nil => simp [fill]
  | append_singleton entries entry ih =>
      rw [fill_append_singleton, List.filter_append]
      cases taken : takes entry with
      | false => simpa [taken] using ih
      | true =>
          simp only [if_true, Std.ExtHashMap.size_insertIfNew, ih, mem_fill_empty_iff,
            List.filter_cons_of_pos taken, List.filter_nil, List.map_append, List.map_cons,
            List.map_nil, List.toFinset_append]
          by_cases known : keyOf entry ∈ (entries.filter takes).map keyOf
          · simp [known]
          · simp [known]

end

/-! ## What a place is called -/

/-- The first name at an address in a bank. -/
def firstName? (entries : List Entry) (bank address : Nat) : Option String :=
  (entries.find? fun entry => entry.place == (bank, address)).map Entry.name

/-- The first name at an address in any bank. -/
def anyName? (entries : List Entry) (address : Nat) : Option String :=
  (entries.find? fun entry => entry.address == address).map Entry.name

/-- The lowest bank with a name at an address. -/
def lowestBank? (entries : List Entry) (address : Nat) : Option Nat :=
  ((entries.filter fun entry => entry.address == address).map Entry.bank).min?

/-- The last entry of a name on the cartridge. -/
def lastNamed? (entries : List Entry) (name : String) : Option Entry :=
  entries.reverse.find? fun entry => entry.liesIn [.rom] && entry.name == name

/-- The places with a name in some regions. -/
def places (entries : List Entry) (regions : List Region) : Finset (Nat × Nat) :=
  ((entries.filter (Entry.liesIn regions)).map Entry.place).toFinset

/-- The addresses with a name in some regions. -/
def addresses (entries : List Entry) (regions : List Region) : Finset Nat :=
  ((entries.filter (Entry.liesIn regions)).map Entry.address).toFinset

theorem liesIn_eq {regions : List Region} {region : Region} {entry : Entry}
    (inside : Region.ofAddress? entry.address = some region) :
    entry.liesIn regions = decide (region ∈ regions) := by
  rw [Entry.liesIn, inside]
  rfl

end SymbolFile

/-! ## Adding entries -/

namespace Names

open SymbolFile (Entry fill firstName? anyName? lowestBank? lastNamed? places addresses)

/-- The names that entries give, one added behind the other. -/
def ofEntries (entries : List Entry) : Names :=
  entries.foldl (fun names entry => names.add .earlier entry.bank entry.address entry.name) empty

theorem add_earlier (names : Names) (entry : Entry) :
    names.add .earlier entry.bank entry.address entry.name =
      { rom :=
          if entry.liesIn [.rom] then names.rom.insertIfNew entry.place entry.name else names.rom
        offsets :=
          if entry.liesIn [.rom] then
            names.offsets.insert entry.name (Bank.wrappedOffset entry.address entry.bank)
          else names.offsets
        unbanked :=
          if entry.liesIn [.vram, .hardware, .hram] then
            names.unbanked.insertIfNew entry.address entry.name
          else names.unbanked
        banked :=
          if entry.liesIn [.sram, .wram] then names.banked.insertIfNew entry.place entry.name
          else names.banked
        lowest :=
          if entry.liesIn [.sram, .wram] then names.lowest.alter entry.address (lower entry.bank)
          else names.lowest } := by
  rw [add]
  cases inside : Region.ofAddress? entry.address with
  | none => simp [Entry.liesIn, inside]
  | some region => cases region <;> simp [SymbolFile.liesIn_eq inside, Entry.place]

theorem ofEntries_append_singleton (entries : List Entry) (entry : Entry) :
    ofEntries (entries ++ [entry]) =
      (ofEntries entries).add .earlier entry.bank entry.address entry.name := by
  rw [ofEntries, List.foldl_append, List.foldl_cons, List.foldl_nil, ← ofEntries]

/-- A map to which every entry it takes adds its name is filled by the entries. -/
theorem eq_fill {key : Type} [BEq key] [LawfulBEq key] [Hashable key] [LawfulHashable key]
    {takes : Entry → Bool} {keyOf : Entry → key} {map : Names → Std.ExtHashMap key String}
    (start : map empty = ∅)
    (step : ∀ names entry, map (names.add .earlier entry.bank entry.address entry.name) =
      if takes entry then (map names).insertIfNew (keyOf entry) entry.name else map names)
    (entries : List Entry) : map (ofEntries entries) = fill takes keyOf ∅ entries := by
  induction entries using List.reverseRecOn with
  | nil => exact start
  | append_singleton entries entry ih =>
      rw [ofEntries_append_singleton, step, SymbolFile.fill_append_singleton, ih]

theorem rom_ofEntries (entries : List Entry) :
    (ofEntries entries).rom = fill (Entry.liesIn [.rom]) Entry.place ∅ entries :=
  eq_fill rfl (fun names entry => by rw [add_earlier]) entries

theorem unbanked_ofEntries (entries : List Entry) :
    (ofEntries entries).unbanked =
      fill (Entry.liesIn [.vram, .hardware, .hram]) Entry.address ∅ entries :=
  eq_fill rfl (fun names entry => by rw [add_earlier]) entries

theorem banked_ofEntries (entries : List Entry) :
    (ofEntries entries).banked = fill (Entry.liesIn [.sram, .wram]) Entry.place ∅ entries :=
  eq_fill rfl (fun names entry => by rw [add_earlier]) entries

theorem offset?_ofEntries (entries : List Entry) (name : String) :
    (ofEntries entries).offset? name =
      (lastNamed? entries name).map fun entry => Bank.wrappedOffset entry.address entry.bank := by
  induction entries using List.reverseRecOn with
  | nil => simp [ofEntries, empty, offset?, lastNamed?]
  | append_singleton entries entry ih =>
      rw [offset?] at ih
      rw [offset?, ofEntries_append_singleton, add_earlier, lastNamed?, List.reverse_append,
        List.reverse_singleton, List.singleton_append, List.find?_cons, ← lastNamed?]
      cases inside : entry.liesIn [.rom] with
      | false => simp [ih]
      | true =>
          by_cases same : entry.name = name
          · simp [same]
          · simp [beq_false_of_ne same, Std.ExtHashMap.getElem?_insert, ih]

theorem min?_append_singleton (banks : List Nat) (bank : Nat) :
    (banks ++ [bank]).min? = lower bank banks.min? := by
  cases banks with
  | nil => rfl
  | cons first rest =>
      simp only [List.cons_append, List.min?_cons', List.foldl_append, List.foldl_cons,
        List.foldl_nil, lower, Nat.min_comm bank]

theorem lowest_ofEntries {address : Nat} {region : Region}
    (inside : Region.ofAddress? address = some region) (isBanked : region ∈ [.sram, .wram])
    (entries : List Entry) :
    (ofEntries entries).lowest[address]? = lowestBank? entries address := by
  induction entries using List.reverseRecOn with
  | nil => simp [ofEntries, empty, lowestBank?]
  | append_singleton entries entry ih =>
      rw [ofEntries_append_singleton, add_earlier, lowestBank?, List.filter_append, List.map_append]
      by_cases same : entry.address = address
      · subst same
        have takes : entry.liesIn [.sram, .wram] = true := by
          rw [SymbolFile.liesIn_eq inside, decide_eq_true isBanked]
        simp only [takes, if_true, Std.ExtHashMap.getElem?_alter_self, ih, lowestBank?,
          List.filter_singleton, beq_self_eq_true]
        exact (min?_append_singleton _ _).symm
      · have noMore : [entry].filter (fun entry => entry.address == address) = [] := by
          simp [same]
        rw [noMore, List.map_nil, List.append_nil, ← lowestBank?, ← ih]
        cases takes : entry.liesIn [.sram, .wram] with
        | false => simp
        | true => simp [Std.ExtHashMap.getElem?_alter, same]

/-! ## What entries mean -/

/-- What names say of places, where each of them lies and how many they are, as entries have it. -/
structure Means (names : Names) (entries : List Entry) : Prop where
  low : ∀ address bank, address < 0x4000 →
    names.at? address bank =
      (firstName? entries 0 address).filter fun name => !(address == 0 && name == "NULL")
  window : ∀ address bank, 0x4000 ≤ address → address < 0x8000 →
    names.at? address bank = firstName? entries bank address
  unbanked : ∀ address bank region, Region.ofAddress? address = some region →
    region ∈ [.vram, .hardware, .hram] → names.at? address bank = anyName? entries address
  banked : ∀ address bank region, Region.ofAddress? address = some region →
    region ∈ [.sram, .wram] → names.at? address bank =
      (lowestBank? entries address).bind fun lowest => firstName? entries lowest address
  nowhere : ∀ address bank, Region.ofAddress? address = none → names.at? address bank = none
  offset : ∀ name, names.offset? name =
    (lastNamed? entries name).map fun entry => Bank.wrappedOffset entry.address entry.bank
  romCount : names.romCount = (places entries [.rom]).card
  ramCount : names.ramCount =
    (addresses entries [.vram, .hardware, .hram]).card + (places entries [.sram, .wram]).card

theorem at?_eq_entered? (names : Names) {address : Nat} (pos : 0 < address) (bank : Nat) :
    names.at? address bank = names.entered? address bank := by
  have notZero : (address == 0) = false := beq_false_of_ne (Nat.ne_of_gt pos)
  rw [at?, notZero]
  cases names.entered? address bank <;> rfl

theorem getElem?_fill_place {regions : List Region} {region : Region} {address : Nat}
    (inside : Region.ofAddress? address = some region) (isOne : region ∈ regions)
    (entries : List Entry) (bank : Nat) :
    (fill (Entry.liesIn regions) Entry.place ∅ entries)[(bank, address)]? =
      firstName? entries bank address := by
  apply SymbolFile.getElem?_fill_of_takes
  intro entry here
  obtain ⟨rfl, rfl⟩ := Prod.mk.inj here
  rw [SymbolFile.liesIn_eq inside, decide_eq_true isOne]

theorem getElem?_fill_address {regions : List Region} {region : Region} {address : Nat}
    (inside : Region.ofAddress? address = some region) (isOne : region ∈ regions)
    (entries : List Entry) :
    (fill (Entry.liesIn regions) Entry.address ∅ entries)[address]? = anyName? entries address := by
  apply SymbolFile.getElem?_fill_of_takes
  rintro entry rfl
  rw [SymbolFile.liesIn_eq inside, decide_eq_true isOne]

theorem entered?_rom {address : Nat} (inside : address < 0x8000) (entries : List Entry)
    (bank : Nat) : (ofEntries entries).entered? address bank =
      firstName? entries (if address < 0x4000 then 0 else bank) address := by
  have isRom := Region.ofAddress?_eq_rom_iff.mpr inside
  rw [entered?, isRom, rom_ofEntries]
  exact getElem?_fill_place isRom List.mem_cons_self entries _

theorem entered?_banked {address : Nat} {region : Region}
    (inside : Region.ofAddress? address = some region) (isBanked : region ∈ [.sram, .wram])
    (entries : List Entry) (bank : Nat) : (ofEntries entries).entered? address bank =
      (lowestBank? entries address).bind fun lowest => firstName? entries lowest address := by
  have lowest := lowest_ofEntries inside isBanked entries
  have first := getElem?_fill_place inside isBanked entries
  rw [← banked_ofEntries] at first
  rw [entered?, inside]
  cases region <;> simp_all

theorem entered?_unbanked {address : Nat} {region : Region}
    (inside : Region.ofAddress? address = some region)
    (isUnbanked : region ∈ [.vram, .hardware, .hram]) (entries : List Entry) (bank : Nat) :
    (ofEntries entries).entered? address bank = anyName? entries address := by
  have first := getElem?_fill_address inside isUnbanked entries
  rw [← unbanked_ofEntries] at first
  rw [entered?, inside]
  cases region <;> simp_all

theorem pos_of_region {address : Nat} {region : Region}
    (inside : Region.ofAddress? address = some region) (notRom : region ≠ .rom) : 0 < address := by
  by_contra zero
  obtain rfl : address = 0 := by omega
  cases inside
  exact notRom rfl

/-- Whatever the entries are, the names that they give mean what they say. -/
theorem means_ofEntries (entries : List Entry) : (ofEntries entries).Means entries where
  low := by
    intro address bank low
    rw [at?, entered?_rom (by omega), if_pos low]
    rfl
  window := by
    intro address bank above below
    rw [at?_eq_entered? _ (by omega), entered?_rom below, if_neg (by omega)]
  unbanked := by
    intro address bank region inside isUnbanked
    have pos := pos_of_region inside (by rintro rfl; simp at isUnbanked)
    rw [at?_eq_entered? _ pos, entered?_unbanked inside isUnbanked]
  banked := by
    intro address bank region inside isBanked
    have pos := pos_of_region inside (by rintro rfl; simp at isBanked)
    rw [at?_eq_entered? _ pos, entered?_banked inside isBanked]
  nowhere := fun _ _ => at?_eq_none_of_region
  offset := offset?_ofEntries entries
  romCount := by rw [romCount, rom_ofEntries, SymbolFile.size_fill_empty, places]
  ramCount := by
    rw [ramCount, unbanked_ofEntries, banked_ofEntries, SymbolFile.size_fill_empty,
      SymbolFile.size_fill_empty, places, addresses]

end Names

/-! ## Entries of a text -/

namespace SymbolFile

/-- What a line says, if it says anything. -/
def said? (line : List Char) : Option Reading :=
  if readLine line = .nothing then none else some (readLine line)

/-- What the lines of a text say, in their order. -/
def readings (text : String) : List Reading :=
  (Text.lines text.toList).filterMap said?

/-- A text comes to a list of entries, and no line of it is anything else. -/
def Lists (text : String) (entries : List Entry) : Prop :=
  readings text = entries.map .entry

instance (text : String) (entries : List Entry) : Decidable (Lists text entries) :=
  inferInstanceAs (Decidable (_ = _))

end SymbolFile

namespace Names

open SymbolFile (Entry Lists said?)

theorem foldlM_addLine_eq_ok_iff (lines : List (List Char)) (start : Nat) (names after : Names) :
    (lines.zipIdx start).foldlM SymbolFile.addLine names = .ok after ↔
      ∃ entries : List Entry, lines.filterMap said? = entries.map .entry ∧
        after = entries.foldl
          (fun names entry => names.add .earlier entry.bank entry.address entry.name) names := by
  induction lines generalizing start names with
  | nil =>
      simp only [List.zipIdx_nil, List.foldlM_nil, List.filterMap_nil, List.nil_eq,
        List.map_eq_nil_iff, exists_eq_left, List.foldl_nil]
      exact ⟨fun same => by cases same; rfl, fun same => by rw [same]; rfl⟩
  | cons line lines ih =>
      rw [List.zipIdx_cons, List.foldlM_cons, List.filterMap_cons, said?, SymbolFile.addLine]
      cases read : SymbolFile.readLine line with
      | nothing => exact ih (start + 1) names
      | entry entry =>
          refine (ih (start + 1) _).trans ⟨?_, ?_⟩
          · rintro ⟨entries, listed, rfl⟩
            exact ⟨entry :: entries, by simp [listed], rfl⟩
          · rintro ⟨entries, listed, rfl⟩
            cases entries with
            | nil => cases listed
            | cons first entries =>
                obtain ⟨same, rest⟩ := List.cons.inj listed
                cases same
                exact ⟨entries, rest, rfl⟩
      | malformed | unsupported bank address =>
          constructor
          · intro error
            cases error
          · rintro ⟨_ | ⟨first, entries⟩, listed, -⟩
            · cases listed
            · cases (List.cons.inj listed).1

theorem ofSymbols_eq_ok_iff {text : String} {names : Names} :
    ofSymbols text = .ok names ↔ ∃ entries, Lists text entries ∧ names = ofEntries entries :=
  foldlM_addLine_eq_ok_iff _ _ _ _

theorem ofSymbols_of_lists {text : String} {entries : List Entry} (lists : Lists text entries) :
    ofSymbols text = .ok (ofEntries entries) :=
  ofSymbols_eq_ok_iff.mpr ⟨entries, lists, rfl⟩

end Names

end Sm83
