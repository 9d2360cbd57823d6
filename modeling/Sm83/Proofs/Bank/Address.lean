import Sm83.Bank

/-!
# Local addresses and offsets

A local address stands for one offset in each bank. Among offsets of one bank, and among offsets
less than a bank apart, it tells them apart.
-/

namespace Sm83.Bank

theorem eq_of_localAddress_of_ofOffset {offset offset' : Nat}
    (same : localAddress offset = localAddress offset')
    (sameBank : ofOffset offset = ofOffset offset') : offset = offset' := by
  rw [← flatOffset_localAddress offset, ← flatOffset_localAddress offset', same, sameBank]

theorem eq_of_localAddress_of_near {offset offset' : Nat}
    (same : localAddress offset = localAddress offset') (le : offset ≤ offset')
    (near : offset' < offset + size) : offset = offset' := by
  unfold localAddress ofOffset windowStart at same
  unfold size at *
  split at same <;> split at same <;> omega

theorem localAddress_eq_self {offset : Nat} (below : offset < windowEnd) :
    localAddress offset = offset := by
  unfold localAddress ofOffset windowStart
  unfold windowEnd at below
  unfold size
  split <;> omega

theorem ofOffset_eq_of_between {first offset last : Nat} (sameBank : ofOffset first = ofOffset last)
    (above : first ≤ offset) (below : offset ≤ last) : ofOffset offset = ofOffset first := by
  simp only [ofOffset, size] at *
  omega

theorem localAddress_flatOffset {address bank : Nat} (inside : address < windowEnd) :
    localAddress (flatOffset address bank) = address := by
  simp only [localAddress, flatOffset, ofOffset]
  unfold windowStart windowEnd size at *
  split <;> split <;> omega

/-- While bank two or three is mapped, the offset of a word in the window is the number of an
address in memory, and addresses in memory stand for themselves. -/
def Clash (bank word address : Nat) : Prop :=
  (bank = 2 ∨ bank = 3) ∧ windowStart ≤ word ∧ word < windowEnd ∧ address = word + (bank - 1) * size

instance (bank word address : Nat) : Decidable (Clash bank word address) :=
  inferInstanceAs (Decidable (_ ∧ _))

/-- Words stand for one offset only where a word in the window meets an address in memory. -/
theorem flatOffset_eq_iff {word word' bank : Nat} (isWord : word < 0x10000)
    (isWord' : word' < 0x10000) :
    flatOffset word bank = flatOffset word' bank ↔
      word = word' ∨ Clash bank word word' ∨ Clash bank word' word := by
  unfold flatOffset Clash windowStart windowEnd size
  split <;> split <;> omega

/-- While neither of the banks two and three is mapped, no two words stand for one offset. -/
theorem flatOffset_injective {word word' bank : Nat} (notTwo : bank ≠ 2) (notThree : bank ≠ 3)
    (isWord : word < 0x10000) (isWord' : word' < 0x10000)
    (same : flatOffset word bank = flatOffset word' bank) : word = word' := by
  have noClash (word address : Nat) : ¬Clash bank word address := by simp [Clash, notTwo, notThree]
  simpa [noClash] using (flatOffset_eq_iff isWord isWord').mp same

end Sm83.Bank
