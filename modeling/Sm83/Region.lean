/-! # Regions of the address space -/

namespace Sm83

/-- The parts of the address space that names are kept for. -/
inductive Region where
  /-- The cartridge, `$0000-$7fff`. -/
  | rom
  /-- Video memory, `$8000-$9fff`. -/
  | vram
  /-- Memory on the cartridge, `$a000-$bfff`. -/
  | sram
  /-- Work memory, `$c000-$dfff`. -/
  | wram
  /-- The registers of the hardware, `$ff00-$ff7f` and `$ffff`. -/
  | hardware
  /-- High memory, `$ff80-$fffe`. -/
  | hram
  deriving DecidableEq, Repr

namespace Region

/-- The region of an address. Echo memory, object memory and the unusable area have none. -/
def ofAddress? (address : Nat) : Option Region :=
  if address < 0x8000 then some .rom
  else if address < 0xa000 then some .vram
  else if address < 0xc000 then some .sram
  else if address < 0xe000 then some .wram
  else if address < 0xff00 then none
  else if address < 0xff80 ∨ address = 0xffff then some .hardware
  else if address < 0xffff then some .hram
  else none

theorem ofAddress?_eq_rom_iff {address : Nat} :
    ofAddress? address = some .rom ↔ address < 0x8000 := by
  unfold ofAddress?
  repeat' split
  all_goals simp
  all_goals omega

/-- Regions end where the address space does. -/
theorem lt_of_ofAddress? {address : Nat} {region : Region}
    (inside : ofAddress? address = some region) : address < 0x10000 := by
  unfold ofAddress? at inside
  grind

end Region

end Sm83
