import Sm83.Names.Constants
import Sm83.Proofs.Text.Fields
import Sm83.Proofs.Text.Numeral

/-!
# Numbers in files of constants

A number is written as its digits behind the mark of their radix, and underscores may stand
anywhere between the characters, in front of them and behind them. `reads_spelled_numbers` says that
every such spelling of a number of 32 bits is read as that number, and a spelling of a larger one
as none.
-/

namespace Sm83.Constants

/-- A mark leads the digits of a number in a radix. -/
inductive Leads : List Char → Nat → Prop where
  | dollar : Leads ['$'] 16
  | lowerX : Leads ['0', 'x'] 16
  | upperX : Leads ['0', 'X'] 16
  | percent : Leads ['%'] 2
  | ampersand : Leads ['&'] 8
  | plain : Leads [] 10

/-- Underscores are put into a text, at any places. -/
inductive Spreads : List Char → List Char → Prop where
  | nil : Spreads [] []
  | keep (c : Char) {text spread : List Char} (rest : Spreads text spread) :
      Spreads (c :: text) (c :: spread)
  | score {text spread : List Char} (rest : Spreads text spread) : Spreads text ('_' :: spread)

variable {mark digits text spread : List Char} {radix n : Nat}

theorem Spreads.filter_eq (spreads : Spreads text spread) (clear : '_' ∉ text) :
    spread.filter (· != '_') = text := by
  induction spreads with
  | nil => rfl
  | keep c rest ih =>
      obtain ⟨other, clear⟩ := List.ne_and_not_mem_of_not_mem_cons clear
      simp [ih clear, Ne.symm other]
  | score rest ih => simpa using ih clear

theorem Spreads.mem (spreads : Spreads text spread) {c : Char} (written : c ∈ spread) :
    c = '_' ∨ c ∈ text := by
  induction spreads with
  | nil => exact .inr written
  | keep kept rest ih =>
      rcases List.mem_cons.mp written with rfl | behind
      · exact .inr List.mem_cons_self
      · exact (ih behind).imp_right (List.mem_cons_of_mem _)
  | score rest ih =>
      rcases List.mem_cons.mp written with rfl | behind
      · exact .inl rfl
      · exact ih behind

theorem Leads.radix_bounds (leads : Leads mark radix) : 1 < radix ∧ radix ≤ 16 := by
  cases leads <;> decide

theorem Leads.clear (leads : Leads mark radix) : '_' ∉ mark := by
  cases leads <;> decide

theorem Leads.isBlank_eq_false (leads : Leads mark radix) :
    ∀ c ∈ mark, Text.isBlank c = false := by
  cases leads <;> simp [Text.isBlank]

theorem trim_of_spreads (leads : Leads mark radix) (read : Text.digits? radix digits = some n)
    (spreads : Spreads (mark ++ digits) text) : Text.trim text = text := by
  apply Text.trim_of_word
  intro c written
  rcases spreads.mem written with rfl | kept
  · decide
  · rcases List.mem_append.mp kept with inMark | inDigits
    · exact leads.isBlank_eq_false c inMark
    · exact Text.isBlank_eq_false_of_digits? read inDigits

/-- The mark settles the radix in which the digits behind it are read; plain digits begin with no
mark. -/
theorem literal?_of_leads (leads : Leads mark radix)
    (written : (Text.trim text).filter (· != '_') = mark ++ digits)
    (read : Text.digits? radix digits = some n) :
    literal? text = Text.number? radix valueLimit digits := by
  rw [literal?, written]
  cases leads with
  | dollar | lowerX | upperX | percent | ampersand => rfl
  | plain =>
      have other {c : Char} (noDigit : Text.digitValue? c = none) : c ∉ digits :=
        Text.notMem_of_digits? read noDigit
      rw [List.nil_append]
      split
      · exact (other (by decide) List.mem_cons_self).elim
      · exact (other (by decide) (List.mem_cons_of_mem _ List.mem_cons_self)).elim
      · exact (other (by decide) (List.mem_cons_of_mem _ List.mem_cons_self)).elim
      · exact (other (by decide) List.mem_cons_self).elim
      · exact (other (by decide) List.mem_cons_self).elim
      · rfl

/-- A number is read from each of its spellings if it has 32 bits, and else none is: its digits in
either case behind any zeros, led by the mark of their radix, with underscores at any places. -/
theorem reads_spelled_numbers (leads : Leads mark radix) (spells : Text.Spells radix n digits)
    (spreads : Spreads (mark ++ digits) text) :
    literal? text = if n < 0x100000000 then some n else none := by
  obtain ⟨big, small⟩ := leads.radix_bounds
  have read := Text.digits?_of_spells big small spells
  have clear : '_' ∉ mark ++ digits := by
    rw [List.mem_append, not_or]
    exact ⟨leads.clear, Text.notMem_of_digits? read (by decide)⟩
  have written : (Text.trim text).filter (· != '_') = mark ++ digits := by
    rw [trim_of_spreads leads read spreads, spreads.filter_eq clear]
  rw [literal?_of_leads leads written read, Text.number?_eq_of_spells big small spells]
  rfl

/-- A number in digits of both cases behind zeros, with underscores even in its mark, and a decimal
number that needs one bit too many. -/
theorem reads_spelled_numbers_with_underscores :
    literal? ['0', '_', 'X', '0', '0', 'f', 'F', '_', '4', '0', '_'] = some 0xff40 ∧
      literal? ['4', '_', '2', '9', '4', '9', '6', '7', '2', '9', '6'] = none := by
  constructor
  · have spells : Text.Spells 16 0xff40 ['0', '0', 'f', 'F', '4', '0'] := ⟨2, by decide⟩
    exact reads_spelled_numbers .upperX spells (by repeat constructor)
  · have spells : Text.Spells 10 0x100000000 ['4', '2', '9', '4', '9', '6', '7', '2', '9', '6'] :=
      ⟨0, by decide⟩
    exact reads_spelled_numbers .plain spells (by repeat constructor)

end Sm83.Constants
