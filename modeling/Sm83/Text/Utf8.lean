/-! # Decoding UTF-8 with replacement -/

namespace Sm83.Text.Utf8

/-- The character that stands for bytes that are no UTF-8. -/
def replacement : Char := '\uFFFD'

/-- The range of the second byte of a sequence and the number of bytes behind it, as the first
byte has them; a byte that leads no sequence has none. -/
def lead? (b : UInt8) : Option (UInt8 × UInt8 × Nat) :=
  if 0xc2 ≤ b ∧ b ≤ 0xdf then some (0x80, 0xbf, 0)
  else if b = 0xe0 then some (0xa0, 0xbf, 1)
  else if b = 0xed then some (0x80, 0x9f, 1)
  else if 0xe1 ≤ b ∧ b ≤ 0xef then some (0x80, 0xbf, 1)
  else if b = 0xf0 then some (0x90, 0xbf, 2)
  else if 0xf1 ≤ b ∧ b ≤ 0xf3 then some (0x80, 0xbf, 2)
  else if b = 0xf4 then some (0x80, 0x8f, 2)
  else none

/-- The value that the first byte of a sequence contributes. -/
def leadValue (b : UInt8) : Nat :=
  if b < 0xe0 then b.toNat % 32 else if b < 0xf0 then b.toNat % 16 else b.toNat % 8

/-- The low six bits of a continuing byte, behind a value read so far. -/
def extend (value : Nat) (b : UInt8) : Nat :=
  value * 64 + b.toNat % 64

/-- Reads the last bytes of a sequence: how many are left, how many the character has taken, its
value so far, and what follows. -/
def finish : Nat → Nat → Nat → List UInt8 → Char × Nat
  | 0, taken, value, _ => (Char.ofNat value, taken)
  | _ + 1, taken, _, [] => (replacement, taken)
  | left + 1, taken, value, b :: rest =>
    if 0x80 ≤ b ∧ b ≤ 0xbf then finish left (taken + 1) (extend value b) rest
    else (replacement, taken)

/-- The character that a byte starts, and how many of the bytes behind it belong to it. A start
that no full sequence follows is one replacement character, as far as it goes. -/
def character (b : UInt8) (rest : List UInt8) : Char × Nat :=
  if b < 0x80 then (Char.ofNat b.toNat, 0)
  else match lead? b, rest with
    | some (low, high, left), c :: rest =>
      if low ≤ c ∧ c ≤ high then finish left 1 (extend (leadValue b) c) rest
      else (replacement, 0)
    | _, _ => (replacement, 0)

/-- The characters that bytes encode, with replacements for what is no UTF-8. -/
def decode : List UInt8 → List Char
  | [] => []
  | b :: rest =>
    let (c, taken) := character b rest
    c :: decode (rest.drop taken)
  termination_by bytes => bytes.length
  decreasing_by simp only [List.length_drop, List.length_cons]; omega

end Sm83.Text.Utf8
