import Sm83.Names.Constants

/-!
# Constants beside the names on the cartridge

Constants for memory are entered beside the names on the cartridge. Whatever the files hold, a place
on the cartridge is called as before, and every name lies where it did.
-/

namespace Sm83

theorem Constants.region_of_mem_inRegion {region : Region} {text name : String} {address : Nat}
    (entered : (name, address) ∈ inRegion region text) :
    Region.ofAddress? address = some region := by
  obtain ⟨line, -, read⟩ := List.mem_filterMap.mp entered
  cases said : readLine line with
  | constant found value =>
      rw [said, Reading.inRegion?] at read
      split at read
      · next inside =>
          cases read
          exact inside.2
      · cases read
  | nothing | unevaluated =>
      rw [said] at read
      cases read

namespace Names

/-- Names with the constants of some files, each of them for its region. -/
def withConstants (names : Names) (files : List (Region × String)) : Names :=
  files.foldl (fun names file => (names.addConstants file.1 file.2).names) names

/-- The same names have been entered on the cartridge. -/
structure SameOnCartridge (names names' : Names) : Prop where
  rom : names'.rom = names.rom
  offsets : names'.offsets = names.offsets

namespace SameOnCartridge

variable {names names' names'' : Names}

theorem refl (names : Names) : names.SameOnCartridge names :=
  ⟨rfl, rfl⟩

theorem trans (same : names.SameOnCartridge names') (same' : names'.SameOnCartridge names'') :
    names.SameOnCartridge names'' :=
  ⟨same'.rom.trans same.rom, same'.offsets.trans same.offsets⟩

theorem at?_eq (same : names.SameOnCartridge names') {address : Nat} (below : address < 0x8000)
    (bank : Nat) : names'.at? address bank = names.at? address bank := by
  simp only [at?, entered?, Region.ofAddress?_eq_rom_iff.mpr below, same.rom]

theorem offset?_eq (same : names.SameOnCartridge names') (name : String) :
    names'.offset? name = names.offset? name := by
  rw [offset?, offset?, same.offsets]

end SameOnCartridge

theorem sameOnCartridge_add (names : Names) (precedence : Precedence) (bank : Nat) {address : Nat}
    {region : Region} (inside : Region.ofAddress? address = some region) (elsewhere : region ≠ .rom)
    (name : String) : names.SameOnCartridge (names.add precedence bank address name) := by
  cases region with
  | rom => exact absurd rfl elsewhere
  | vram | sram | wram | hardware | hram => constructor <;> simp [add, inside]

theorem sameOnCartridge_addConstants (names : Names) {region : Region} (elsewhere : region ≠ .rom)
    (text : String) : names.SameOnCartridge (names.addConstants region text).names := by
  have inside : ∀ constant ∈ Constants.inRegion region text,
      Region.ofAddress? constant.2 = some region :=
    fun _ entered => Constants.region_of_mem_inRegion entered
  rw [names_addConstants]
  generalize Constants.inRegion region text = constants at inside
  induction constants generalizing names with
  | nil => exact .refl names
  | cons constant constants ih =>
      have first := sameOnCartridge_add names .later 0 (inside constant List.mem_cons_self)
        elsewhere constant.1
      exact first.trans (ih _ fun other entered => inside other (List.mem_cons_of_mem _ entered))

theorem sameOnCartridge_withConstants (names : Names) {files : List (Region × String)}
    (elsewhere : ∀ file ∈ files, file.1 ≠ .rom) :
    names.SameOnCartridge (names.withConstants files) := by
  induction files generalizing names with
  | nil => exact .refl names
  | cons file files ih =>
      have first := sameOnCartridge_addConstants names (elsewhere file List.mem_cons_self) file.2
      exact first.trans (ih _ fun other read => elsewhere other (List.mem_cons_of_mem _ read))

end Names

end Sm83
