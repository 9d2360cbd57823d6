import Sm83.Text.Numeral

/-!
# Banks of a cartridge

A flat offset counts bytes from the start of the image. The processor sees it at a local
address: bank zero at `$0000-$3fff`, every other bank in the window at `$4000-$7fff`.
-/

namespace Sm83.Bank

/-- The number of bytes in one bank. -/
def size : Nat := 0x4000

/-- The number of bytes that a cartridge can hold: 128 banks. -/
def capacity : Nat := 0x200000

/-- The first local address of the window onto the switchable banks. -/
def windowStart : Nat := 0x4000

/-- The first local address above the cartridge. -/
def windowEnd : Nat := 0x8000

/-- The bank that holds an offset. -/
def ofOffset (offset : Nat) : Nat :=
  offset / size

/-- The local address at which the processor sees an offset. -/
def localAddress (offset : Nat) : Nat :=
  if ofOffset offset = 0 then offset % size else windowStart + offset % size

/-- The offset behind a local address while a bank is mapped. With bank zero mapped the window
shows bank one, and an address outside the window stands for itself. -/
def flatOffset (address bank : Nat) : Nat :=
  if windowStart ≤ address ∧ address < windowEnd ∧ 0 < bank then
    address + (bank - 1) * size
  else address

/-- The offset behind a local address as 32 bits hold it: one that lies beyond their reach starts
again from zero. -/
def wrappedOffset (address bank : Nat) : Nat :=
  flatOffset address bank % UInt32.size

/-- The last offset in the bank that holds an offset. -/
def lastOffset (offset : Nat) : Nat :=
  (ofOffset offset + 1) * size - 1

/-- The remark behind a routine's name: its offset, its bank and its local address. -/
def remark (offset : Nat) : String :=
  " ; " ++ Text.hex offset ++ " (" ++ Text.hex (ofOffset offset) ++ ":" ++
    Text.hex (localAddress offset) ++ ")"

theorem localAddress_lt (offset : Nat) : localAddress offset < windowEnd := by
  unfold localAddress windowEnd windowStart size
  split <;> omega

/-- Mapping the bank of an offset shows that offset again at its local address. -/
theorem flatOffset_localAddress (offset : Nat) :
    flatOffset (localAddress offset) (ofOffset offset) = offset := by
  unfold flatOffset localAddress ofOffset windowStart windowEnd size
  split <;> split <;> omega

/-- In the window 32 bits reach as far as bank `$3ffff`. -/
theorem flatOffset_lt {address bank : Nat} (isAddress : address < 0x10000)
    (inReach : 0x4000 ≤ address → address < 0x8000 → bank ≤ 0x3ffff) :
    flatOffset address bank < UInt32.size := by
  unfold flatOffset windowStart windowEnd size UInt32.size
  split <;> omega

theorem wrappedOffset_eq {address bank : Nat} (fits : flatOffset address bank < UInt32.size) :
    wrappedOffset address bank = flatOffset address bank :=
  Nat.mod_eq_of_lt fits

end Sm83.Bank
