import Mathlib.Data.List.Induction
import Sm83.Text.Blank
import Sm83.Text.Numeral

/-!
# Numerals read back

`digits?` reads what the writers of numerals write, so numerals in hexadecimal tell numbers apart
and hold nothing but digits. A number is read back from any of its spellings, with letters of either
case and with zeros in front, and from nothing else.
-/

namespace Sm83.Text

/-! ## Reading what was written -/

theorem digitValue?_digitChar (digit : Nat) (small : digit < 16) :
    digitValue? (Nat.digitChar digit) = some digit := by
  revert digit
  decide

theorem foldlM_toDigits {radix : Nat} (big : 1 < radix) (small : radix ≤ 16) (n : Nat) :
    (Nat.toDigits radix n).foldlM (appendDigit? radix) 0 = some n := by
  have digitValue (digit : Nat) (isDigit : digit < radix) :
      digitValue? (Nat.digitChar digit) = some digit :=
    digitValue?_digitChar digit (Nat.lt_of_lt_of_le isDigit small)
  induction n using Nat.base_induction radix big with
  | single digit isDigit =>
      simp [Nat.toDigits_of_lt_base isDigit, appendDigit?, digitValue digit isDigit, isDigit]
  | digit n digit isDigit pos ih =>
      rw [← Nat.toDigits_append_toDigits big pos isDigit, List.foldlM_append, ih,
        Nat.toDigits_of_lt_base isDigit]
      simp [appendDigit?, digitValue digit isDigit, isDigit, Nat.mul_comm]

theorem digits?_toDigits {radix : Nat} (big : 1 < radix) (small : radix ≤ 16) (n : Nat) :
    digits? radix (Nat.toDigits radix n) = some n := by
  have notEmpty : (Nat.toDigits radix n).isEmpty = false := by simp [Nat.toDigits_ne_nil]
  rw [digits?, notEmpty]
  exact foldlM_toDigits big small n

theorem foldlM_replicate_zero {radix : Nat} (pos : 0 < radix) (count : Nat) (text : List Char) :
    (List.replicate count '0' ++ text).foldlM (appendDigit? radix) 0 =
      text.foldlM (appendDigit? radix) 0 := by
  have zero : appendDigit? radix 0 '0' = some 0 := by simp [appendDigit?, digitValue?, pos]
  induction count with
  | zero => rfl
  | succ count ih =>
      rw [List.replicate_succ, List.cons_append, List.foldlM_cons, zero]
      exact ih

theorem digits?_hex (n : Nat) : digits? 16 (hex n).toList = some n := by
  rw [hex, String.toList_ofList]
  exact digits?_toDigits (by decide) (by decide) n

theorem digits?_hexWide (width n : Nat) : digits? 16 (hexWide width n).toList = some n := by
  have notEmpty : (hexWide width n).toList.isEmpty = false := by
    simp [hexWide, Nat.toDigits_ne_nil]
  rw [digits?, notEmpty, hexWide, String.toList_ofList]
  simp only [Bool.false_eq_true, if_false]
  rw [foldlM_replicate_zero (by decide)]
  exact foldlM_toDigits (by decide) (by decide) n

theorem hex_injective {n m : Nat} (same : hex n = hex m) : n = m := by
  have read := digits?_hex n
  rw [same, digits?_hex m] at read
  exact (Option.some.inj read).symm

theorem hexWide_injective {width n m : Nat} (same : hexWide width n = hexWide width m) :
    n = m := by
  have read := digits?_hexWide width n
  rw [same, digits?_hexWide width m] at read
  exact (Option.some.inj read).symm

/-! ## Nothing but digits -/

theorem isSome_digitValue?_of_foldlM {radix value n : Nat} {text : List Char} {c : Char}
    (read : text.foldlM (appendDigit? radix) value = some n) (written : c ∈ text) :
    (digitValue? c).isSome = true := by
  induction text generalizing value with
  | nil => cases written
  | cons d text ih =>
      rw [List.foldlM_cons] at read
      obtain ⟨value', first, rest⟩ := Option.bind_eq_some_iff.mp read
      rcases List.mem_cons.mp written with rfl | later
      · rw [appendDigit?] at first
        split at first
        · next found => simp [found]
        · cases first
      · exact ih rest later

theorem isSome_digitValue?_of_digits? {radix n : Nat} {text : List Char} {c : Char}
    (read : digits? radix text = some n) (written : c ∈ text) : (digitValue? c).isSome = true := by
  rw [digits?] at read
  split at read
  · cases read
  · exact isSome_digitValue?_of_foldlM read written

theorem notMem_of_digits? {radix n : Nat} {text : List Char} {c : Char}
    (read : digits? radix text = some n) (noDigit : digitValue? c = none) : c ∉ text := by
  intro written
  have digit := isSome_digitValue?_of_digits? read written
  rw [noDigit] at digit
  cases digit

theorem isBlank_eq_false_of_digitValue? {c : Char} (digit : (digitValue? c).isSome = true) :
    isBlank c = false := by
  have low : 0x30 ≤ c.toNat ∧ c.toNat ≤ 0x66 := by
    rw [digitValue?] at digit
    grind
  simp only [isBlank, Bool.or_eq_false_iff, Bool.and_eq_false_iff, decide_eq_false_iff_not,
    beq_eq_false_iff_ne]
  omega

theorem isBlank_eq_false_of_digits? {radix n : Nat} {text : List Char}
    (read : digits? radix text = some n) {c : Char} (written : c ∈ text) : isBlank c = false :=
  isBlank_eq_false_of_digitValue? (isSome_digitValue?_of_digits? read written)

/-! ## Spellings -/

/-- A text spells a number in a radix: it is its digits, the letters in either case, behind any
zeros. -/
def Spells (radix n : Nat) (text : List Char) : Prop :=
  ∃ zeros, text.map Char.toLower = List.replicate zeros '0' ++ Nat.toDigits radix n

theorem digitValue?_toLower (c : Char) : digitValue? c.toLower = digitValue? c := by
  unfold Char.toLower
  split
  · next upper =>
      have low : 0x41 ≤ c.val.toNat := upper.1
      have high : c.val.toNat ≤ 0x5a := upper.2
      have distance : ('a'.val - 'A'.val).toNat = 0x20 := by decide
      have moved : (c.val + ('a'.val - 'A'.val)).toNat = c.val.toNat + 0x20 := by
        rw [UInt32.toNat_add, distance]
        exact Nat.mod_eq_of_lt (by omega)
      simp only [digitValue?, Char.toNat, moved]
      grind
  · rfl

theorem digits?_map_toLower (radix : Nat) (text : List Char) :
    digits? radix (text.map Char.toLower) = digits? radix text := by
  have append (value : Nat) (c : Char) :
      appendDigit? radix value c.toLower = appendDigit? radix value c := by
    rw [appendDigit?, appendDigit?, digitValue?_toLower]
  rw [digits?, digits?, List.foldlM_map]
  simp only [append, List.isEmpty_map]

theorem digits?_of_spells {radix n : Nat} {text : List Char} (big : 1 < radix)
    (small : radix ≤ 16) (spells : Spells radix n text) : digits? radix text = some n := by
  obtain ⟨zeros, lower⟩ := spells
  have notEmpty : (List.replicate zeros '0' ++ Nat.toDigits radix n).isEmpty = false := by
    simp [Nat.toDigits_ne_nil]
  rw [← digits?_map_toLower, lower, digits?, notEmpty]
  simp only [Bool.false_eq_true, if_false]
  rw [foldlM_replicate_zero (Nat.zero_lt_of_lt big)]
  exact foldlM_toDigits big small n

theorem number?_eq_of_spells {radix limit n : Nat} {text : List Char} (big : 1 < radix)
    (small : radix ≤ 16) (spells : Spells radix n text) :
    number? radix limit text = if n < limit then some n else none := by
  have read := digits?_of_spells big small spells
  have noSign : dropPlus text = text := by
    rw [dropPlus.eq_2]
    rintro rest rfl
    exact notMem_of_digits? read (by decide) List.mem_cons_self
  rw [number?, noSign, read, Option.filter_some]
  simp only [decide_eq_true_eq]

theorem number?_of_spells {radix limit n : Nat} {text : List Char} (big : 1 < radix)
    (small : radix ≤ 16) (inLimit : n < limit) (spells : Spells radix n text) :
    number? radix limit text = some n := by
  rw [number?_eq_of_spells big small spells, if_pos inLimit]

theorem ne_nil_of_spells {radix n : Nat} {text : List Char} (big : 1 < radix)
    (small : radix ≤ 16) (spells : Spells radix n text) : text ≠ [] := by
  rintro rfl
  cases digits?_of_spells big small spells

theorem clear_of_spells {radix n : Nat} {text : List Char} {mark : Char} (big : 1 < radix)
    (small : radix ≤ 16) (noDigit : digitValue? mark = none) (spells : Spells radix n text) :
    ∀ c ∈ text, isBlank c = false ∧ c ≠ mark := by
  intro c written
  have read := digits?_of_spells big small spells
  refine ⟨isBlank_eq_false_of_digits? read written, ?_⟩
  rintro rfl
  exact notMem_of_digits? read noDigit written

theorem map_toLower_toDigits (n : Nat) :
    (Nat.toDigits 16 n).map Char.toLower = Nat.toDigits 16 n := by
  have digit (d : Nat) (isDigit : d < 16) : (Nat.digitChar d).toLower = Nat.digitChar d := by
    revert d
    decide
  induction n using Nat.base_induction 16 (by decide) with
  | single d isDigit => simp [Nat.toDigits_of_lt_base isDigit, digit d isDigit]
  | digit n d isDigit pos ih =>
      rw [← Nat.toDigits_append_toDigits (by decide) pos isDigit, List.map_append, ih,
        Nat.toDigits_of_lt_base isDigit]
      simp [digit d isDigit]

theorem spells_hex (n : Nat) : Spells 16 n (hex n).toList :=
  ⟨0, by rw [hex, String.toList_ofList, map_toLower_toDigits]; rfl⟩

/-! ## Spellings are all that is read -/

theorem toLower_of_digitValue? {c : Char} {digit : Nat} (value : digitValue? c = some digit) :
    c.toLower = Nat.digitChar digit := by
  have table : ∀ n < 0x67, ∀ digit ∈ digitValue? (Char.ofNat n),
      (Char.ofNat n).toLower = Nat.digitChar digit := by
    decide
  have low : c.toNat < 0x67 := by
    rw [digitValue?] at value
    grind
  have read := table c.toNat low digit
  rw [Char.ofNat_toNat] at read
  exact read value

theorem foldlM_append_singleton_eq_some_iff {radix value n : Nat} {text : List Char} {c : Char} :
    (text ++ [c]).foldlM (appendDigit? radix) value = some n ↔
      ∃ m digit, text.foldlM (appendDigit? radix) value = some m ∧ digitValue? c = some digit ∧
        digit < radix ∧ n = m * radix + digit := by
  have last (m : Nat) : appendDigit? radix m c = some n ↔
      ∃ digit, digitValue? c = some digit ∧ digit < radix ∧ n = m * radix + digit := by
    rw [appendDigit?]
    cases digitValue? c with
    | none => simp
    | some digit => by_cases small : digit < radix <;> simp [small, eq_comm]
  rw [List.foldlM_append]
  simp [last, Option.bind_eq_some_iff]

theorem spells_of_digits? {radix n : Nat} {text : List Char} (big : 1 < radix)
    (read : digits? radix text = some n) : Spells radix n text := by
  induction text using List.reverseRecOn generalizing n with
  | nil => cases read
  | append_singleton text c ih =>
      have read : (text ++ [c]).foldlM (appendDigit? radix) 0 = some n := by
        simpa [digits?] using read
      obtain ⟨m, digit, front, value, small, rfl⟩ := foldlM_append_singleton_eq_some_iff.mp read
      have lower := toLower_of_digitValue? value
      cases text with
      | nil =>
          cases front
          exact ⟨0, by simp [lower, Nat.toDigits_of_lt_base small]⟩
      | cons d text =>
          obtain ⟨zeros, front⟩ := ih front
          rw [Spells, List.map_append, front]
          by_cases zero : m = 0
          · subst zero
            refine ⟨zeros + 1, ?_⟩
            simp [lower, Nat.toDigits_of_lt_base small, List.replicate_succ']
          · refine ⟨zeros, ?_⟩
            rw [Nat.mul_comm, ← Nat.toDigits_append_toDigits big (by omega) small,
              Nat.toDigits_of_lt_base small, List.append_assoc]
            simp [lower]

/-- A number below the limit is read from its spellings, with a plus sign in front or without, and
from nothing else. -/
theorem number?_eq_some_iff {radix limit n : Nat} {text : List Char} (big : 1 < radix)
    (small : radix ≤ 16) :
    number? radix limit text = some n ↔
      n < limit ∧ ∃ digits, (text = digits ∨ text = '+' :: digits) ∧ Spells radix n digits := by
  constructor
  · intro read
    obtain ⟨read, inLimit⟩ := Option.filter_eq_some_iff.mp read
    have spells := spells_of_digits? big read
    refine ⟨by simpa using inLimit, dropPlus text, ?_, spells⟩
    cases text with
    | nil => exact .inl rfl
    | cons c rest =>
        by_cases plus : c = '+'
        · subst plus
          exact .inr rfl
        · have unsigned : dropPlus (c :: rest) = c :: rest := by
            rw [dropPlus.eq_2]
            rintro rest' ⟨⟩
            exact plus rfl
          exact .inl unsigned.symm
  · rintro ⟨inLimit, digits, rfl | rfl, spells⟩
    · exact number?_of_spells big small inLimit spells
    · have read := digits?_of_spells big small spells
      simp [number?, dropPlus, read, inLimit]

end Sm83.Text
