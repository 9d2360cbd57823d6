import Std.Data.ExtHashMap
import Sm83.Bank
import Sm83.Region

/-!
# Names of addresses

A name belongs to a place on the cartridge or in memory. Video memory, hardware registers and high
memory are unbanked; the cartridge, its memory and work memory are kept by bank. Looking up a place
in banked memory ignores the bank that is mapped: the lowest bank with a name there answers.
-/

namespace Sm83

/-- Names of places. -/
structure Names where
  /-- The first name of each place on the cartridge, by bank and address. -/
  rom : Std.ExtHashMap (Nat × Nat) String := ∅
  /-- The flat offset that each name on the cartridge got last. -/
  offsets : Std.ExtHashMap String Nat := ∅
  /-- The names in unbanked memory, by address. -/
  unbanked : Std.ExtHashMap Nat String := ∅
  /-- The first name of each place in banked memory, by bank and address. -/
  banked : Std.ExtHashMap (Nat × Nat) String := ∅
  /-- The lowest bank with a name for an address in banked memory. -/
  lowest : Std.ExtHashMap Nat Nat := ∅

namespace Names

/-- No names. -/
def empty : Names := {}

/-- Which of two names for one place in unbanked memory stays. -/
inductive Precedence where
  /-- The earlier one, as in symbol files. -/
  | earlier
  /-- The later one, as in files of constants. -/
  | later
  deriving DecidableEq, Repr

/-- The lower of two banks, one of which may be missing. -/
def lower (bank : Nat) : Option Nat → Option Nat
  | none => some bank
  | some other => some (min bank other)

/-- Gives a name to an address while a bank is mapped; an address without a region gets none. -/
def add (names : Names) (precedence : Precedence) (bank address : Nat) (name : String) : Names :=
  match Region.ofAddress? address with
  | none => names
  | some .rom =>
    { names with
      rom := names.rom.insertIfNew (bank, address) name
      offsets := names.offsets.insert name (Bank.wrappedOffset address bank) }
  | some .sram | some .wram =>
    { names with
      banked := names.banked.insertIfNew (bank, address) name
      lowest := names.lowest.alter address (lower bank) }
  | some .vram | some .hardware | some .hram =>
    { names with
      unbanked := match precedence with
        | .earlier => names.unbanked.insertIfNew address name
        | .later => names.unbanked.insert address name }

/-- A name that dumps of symbols give to the unused entry at address zero. -/
def placeholder : String := "NULL"

/-- The name that was entered for an address as seen while a bank is mapped. -/
def entered? (names : Names) (address bank : Nat) : Option String :=
  match Region.ofAddress? address with
  | none => none
  | some .rom => names.rom[(if address < Bank.windowStart then 0 else bank, address)]?
  | some .sram | some .wram =>
    names.lowest[address]?.bind fun bank => names.banked[(bank, address)]?
  | some .vram | some .hardware | some .hram => names.unbanked[address]?

/-- The name of an address as seen while a bank is mapped. The placeholder at address zero is no
name. -/
def at? (names : Names) (address bank : Nat) : Option String :=
  (names.entered? address bank).filter fun name => !(address == 0 && name == placeholder)

/-- The flat offset of a name on the cartridge. -/
def offset? (names : Names) (name : String) : Option Nat :=
  names.offsets[name]?

/-- The number of places on the cartridge that have a name. -/
def romCount (names : Names) : Nat :=
  names.rom.size

/-- The number of places in memory that have a name. -/
def ramCount (names : Names) : Nat :=
  names.unbanked.size + names.banked.size

/-! ## Looking up -/

@[simp]
theorem at?_empty (address bank : Nat) : empty.at? address bank = none := by
  unfold at? entered? empty
  split <;> simp

theorem at?_eq_none_of_region {names : Names} {address bank : Nat}
    (h : Region.ofAddress? address = none) : names.at? address bank = none := by
  simp [at?, entered?, h]

end Names

end Sm83
