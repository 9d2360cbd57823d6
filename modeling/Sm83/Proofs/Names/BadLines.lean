import Mathlib
import Sm83.Proofs.Names.Writing

/-!
# Lines that make a symbol file unacceptable

A line is bad if it is neither blank nor a remark and does not start with a place and a name, or if
the place has no region. A file is accepted exactly if none of its lines is bad, and otherwise the
first bad one is the error: `accepts_or_blames_first`. All of this is said of the text alone, whose
lines are those of `Text.lines_eq_iff`.
-/

namespace Sm83

namespace SymbolFile

/-! ## Bad lines -/

/-- A text writes a number below a limit in hexadecimal, with or without a plus sign. -/
def WritesHex (limit n : Nat) (text : List Char) : Prop :=
  n < limit ∧ ∃ digits, (text = digits ∨ text = '+' :: digits) ∧ Text.Spells 16 n digits

/-- A field writes a bank and an address, parted by its first colon. -/
def IsPlace (field : List Char) (bank address : Nat) : Prop :=
  ∃ left right, field = left ++ ':' :: right ∧ ':' ∉ left ∧ WritesHex 0x100000000 bank left ∧
    WritesHex 0x10000 address right

/-- In front of its remark a line holds something, but has no second field, or the first one is no
place. -/
def IsMalformed (line : List Char) : Prop :=
  let fields := Text.fields (Text.before ';' line)
  ¬IsTail line ∧
    (fields.length < 2 ∨ ∀ field ∈ fields.head?, ∀ bank address, ¬IsPlace field bank address)

/-- A line starts with a place and a second field, but the place has no region. -/
def IsUnsupported (line : List Char) (bank address : Nat) : Prop :=
  let fields := Text.fields (Text.before ';' line)
  2 ≤ fields.length ∧ (∃ field ∈ fields.head?, IsPlace field bank address) ∧
    Region.ofAddress? address = none

/-- A line that no symbol file may have. -/
def IsBad (line : List Char) : Prop :=
  IsMalformed line ∨ ∃ bank address, IsUnsupported line bank address

/-- What is wrong with the line of a number: the line as it stands, or the place without a
region. -/
inductive Blames (line : List Char) (number : Nat) : SymbolError → Prop where
  | malformed (bad : IsMalformed line) :
      Blames line number (.malformed number (String.ofList line))
  | unsupported {bank address : Nat} (bad : IsUnsupported line bank address) :
      Blames line number (.unsupported number bank address)

/-! ## Reading a line -/

theorem writesHex_iff {limit n : Nat} {text : List Char} :
    WritesHex limit n text ↔ Text.number? 16 limit text = some n :=
  (Text.number?_eq_some_iff (by decide) (by decide)).symm

theorem place?_eq_some_iff {field : List Char} {bank address : Nat} :
    place? field = some (bank, address) ↔ IsPlace field bank address := by
  simp only [place?, IsPlace, writesHex_iff, Option.bind_eq_bind, Option.bind_eq_some_iff,
    Option.pure_def, Option.some.injEq, Prod.exists, Prod.mk.injEq, Text.cut?_eq_some_iff]
  constructor
  · rintro ⟨left, right, ⟨parts, clear⟩, _, bankRead, _, addressRead, rfl, rfl⟩
    exact ⟨left, right, parts, clear, bankRead, addressRead⟩
  · rintro ⟨left, right, parts, clear, bankRead, addressRead⟩
    exact ⟨left, right, ⟨parts, clear⟩, bank, bankRead, address, addressRead, rfl, rfl⟩

theorem place?_eq_none_iff {field : List Char} :
    place? field = none ↔ ∀ bank address, ¬IsPlace field bank address := by
  simp only [← place?_eq_some_iff, Option.eq_none_iff_forall_ne_some, Prod.forall, ne_eq]

theorem IsPlace.unique {field : List Char} {bank address bank' address' : Nat}
    (isPlace : IsPlace field bank address) (isPlace' : IsPlace field bank' address') :
    bank = bank' ∧ address = address' := by
  have read := place?_eq_some_iff.mpr isPlace
  rw [place?_eq_some_iff.mpr isPlace'] at read
  exact Prod.mk.inj (Option.some.inj read.symm)

theorem readLine_eq_malformed_iff {line : List Char} :
    readLine line = .malformed ↔ IsMalformed line := by
  rw [readLine, IsMalformed, IsTail, ← Text.fields_eq_nil_iff]
  split
  · next empty => simp [empty]
  · next field only => simp [only]
  · next field name rest both =>
      rw [both]
      split
      · next noPlace => simpa using place?_eq_none_iff.mp noPlace
      · next bank address found =>
          have isPlace := place?_eq_some_iff.mp found
          have good : ¬∀ bank address, ¬IsPlace field bank address :=
            fun none => none bank address isPlace
          split <;> simpa using good

theorem readLine_eq_unsupported_iff {line : List Char} {bank address : Nat} :
    readLine line = .unsupported bank address ↔ IsUnsupported line bank address := by
  rw [readLine, IsUnsupported]
  split
  · next empty => simp [empty]
  · next field only => simp [only]
  · next field name rest both =>
      rw [both]
      split
      · next noPlace => simp [place?_eq_none_iff.mp noPlace]
      · next bank' address' found =>
          have isPlace := place?_eq_some_iff.mp found
          split
          · next known =>
              refine iff_of_false (by simp) ?_
              rintro ⟨_, ⟨_, ⟨⟩, isPlace'⟩, noRegion⟩
              obtain ⟨rfl, rfl⟩ := isPlace.unique isPlace'
              rw [noRegion] at known
              cases known
          · next unknown =>
              constructor
              · rintro ⟨⟩
                exact ⟨by simp, ⟨field, rfl, isPlace⟩, by simpa using unknown⟩
              · rintro ⟨_, ⟨_, ⟨⟩, isPlace'⟩, _⟩
                obtain ⟨rfl, rfl⟩ := isPlace.unique isPlace'
                rfl

theorem addLine_eq_error_iff {names : Names} {line : List Char} {number : Nat}
    {error : SymbolError} :
    addLine names (line, number) = .error error ↔ Blames line number error := by
  rw [addLine]
  constructor
  · intro failed
    split at failed
    · cases failed
    · cases failed
    · next malformed =>
        cases failed
        exact .malformed (readLine_eq_malformed_iff.mp malformed)
    · next unsupported =>
        cases failed
        exact .unsupported (readLine_eq_unsupported_iff.mp unsupported)
  · rintro (malformed | unsupported)
    · rw [readLine_eq_malformed_iff.mpr malformed]
    · rw [readLine_eq_unsupported_iff.mpr unsupported]

theorem isBad_iff_blames {line : List Char} (number : Nat) :
    IsBad line ↔ ∃ error, Blames line number error := by
  constructor
  · rintro (malformed | ⟨bank, address, unsupported⟩)
    · exact ⟨_, .malformed malformed⟩
    · exact ⟨_, .unsupported unsupported⟩
  · rintro ⟨_, malformed | unsupported⟩
    · exact .inl malformed
    · exact .inr ⟨_, _, unsupported⟩

/-! ## Reading line by line -/

/-- Adding lines fails at the first bad one, whatever has been added before. -/
theorem foldlM_addLine_eq_error_iff {lines : List (List Char)} {start : Nat} {names : Names}
    {error : SymbolError} :
    (lines.zipIdx start).foldlM addLine names = .error error ↔
      ∃ earlier line later, lines = earlier ++ line :: later ∧
        (∀ other ∈ earlier, ¬IsBad other) ∧ Blames line (start + earlier.length) error := by
  induction lines generalizing start names with
  | nil =>
      refine iff_of_false (fun failed => by cases failed) ?_
      rintro ⟨_ | _, _, _, parts, _⟩ <;> cases parts
  | cons line lines ih =>
      rw [List.zipIdx_cons, List.foldlM_cons]
      cases added : addLine names (line, start) with
      | error fault =>
          have blames := addLine_eq_error_iff.mp added
          have bad : IsBad line := (isBad_iff_blames start).mpr ⟨fault, blames⟩
          constructor
          · rintro ⟨⟩
            exact ⟨[], line, lines, rfl, by simp, blames⟩
          · rintro ⟨_ | ⟨first, earlier⟩, _, _, ⟨⟩, good, blames'⟩
            · have failed : addLine names (line, start) = .error error :=
                addLine_eq_error_iff.mpr blames'
              rw [added] at failed
              cases failed
              rfl
            · exact absurd bad (good line List.mem_cons_self)
      | ok next =>
          have good : ¬IsBad line := by
            rw [isBad_iff_blames start]
            rintro ⟨fault, blames⟩
            rw [addLine_eq_error_iff.mpr blames] at added
            cases added
          refine ih.trans ⟨?_, ?_⟩
          · rintro ⟨earlier, bad, later, rfl, goods, blames⟩
            refine ⟨line :: earlier, bad, later, rfl, ?_, ?_⟩
            · exact List.forall_mem_cons.mpr ⟨good, goods⟩
            · rwa [List.length_cons, Nat.add_comm earlier.length, ← Nat.add_assoc]
          · rintro ⟨_ | ⟨first, earlier⟩, bad, later, ⟨⟩, goods, blames⟩
            · exact absurd ((isBad_iff_blames _).mpr ⟨_, blames⟩) good
            · refine ⟨earlier, bad, later, rfl, (List.forall_mem_cons.mp goods).2, ?_⟩
              rwa [Nat.add_assoc, Nat.add_comm 1]

end SymbolFile

open SymbolFile (IsBad Blames)

/-- A symbol file is not accepted exactly if one of its lines is bad, and the error is what is wrong
with the first one. -/
theorem Names.accepts_or_blames_first (text : String) :
    ((∃ error, ofSymbols text = .error error) ↔ ∃ line ∈ Text.lines text.toList, IsBad line) ∧
      ∀ error, ofSymbols text = .error error ↔
        ∃ earlier line later, Text.lines text.toList = earlier ++ line :: later ∧
          (∀ other ∈ earlier, ¬IsBad other) ∧ Blames line (earlier.length + 1) error := by
  have first (error : SymbolError) : ofSymbols text = .error error ↔
      ∃ earlier line later, Text.lines text.toList = earlier ++ line :: later ∧
        (∀ other ∈ earlier, ¬IsBad other) ∧ Blames line (earlier.length + 1) error := by
    rw [ofSymbols, SymbolFile.foldlM_addLine_eq_error_iff]
    simp only [Nat.add_comm 1]
  refine ⟨⟨?_, ?_⟩, first⟩
  · rintro ⟨error, failed⟩
    obtain ⟨earlier, line, later, parts, _, blames⟩ := (first error).mp failed
    refine ⟨line, ?_, (SymbolFile.isBad_iff_blames _).mpr ⟨error, blames⟩⟩
    rw [parts]
    simp
  · rintro ⟨line, listed, bad⟩
    classical
    obtain ⟨found, isFirst⟩ : ∃ found, (Text.lines text.toList).find? (IsBad ·) = some found := by
      apply Option.isSome_iff_exists.mp
      rw [List.find?_isSome]
      exact ⟨line, listed, decide_eq_true bad⟩
    obtain ⟨isBad, earlier, later, parts, good⟩ := List.find?_eq_some_iff_append.mp isFirst
    obtain ⟨error, blames⟩ :=
      (SymbolFile.isBad_iff_blames (earlier.length + 1)).mp (of_decide_eq_true isBad)
    exact ⟨error, (first error).mpr
      ⟨earlier, found, later, parts, by simpa using good, blames⟩⟩

example : Names.ofSymbols ";\r\nA\r\n" = .error (.malformed 2 "A") := by
  cbv

end Sm83
