import Sm83.Proofs.Instruction.Writing
import Sm83.Proofs.Listing.Definitions

/-!
# Operands as listings show them

Without names, the text of an operand tells the operand: bytes and addresses in hexadecimal, and
labels and routines by the offset in their name. Where neither of the banks two and three is
mapped, no two words are shown alike.
-/

namespace Sm83

/-! ## Numerals behind a mark -/

theorem Marked.append_numeral {stem numeral : String} {radix n : Nat} (marked : Marked stem)
    (read : Text.digits? radix numeral.toList = some n) : Marked (stem ++ numeral) := by
  have noBracket : ']' ∉ numeral.toList := Text.notMem_of_digits? read (by decide)
  have oneRow : '\n' ∉ numeral.toList := Text.notMem_of_digits? read (by decide)
  obtain ⟨mark, isMark, here⟩ := marked.starts
  refine ⟨⟨mark, isMark, ?_⟩, ?_, ?_⟩
  · rw [String.toList_append, List.head?_append, here, Option.some_or]
  · simp [marked.noBracket, noBracket]
  · simp [marked.oneRow, oneRow]

theorem digits?_toString (n : Nat) : Text.digits? 10 (toString n).toList = some n := by
  rw [Nat.toString_eq_repr, Nat.toList_repr]
  exact Text.digits?_toDigits (by decide) (by decide) n

theorem marked_dollar : Marked "$" := by
  constructor <;> simp [marks]

theorem marked_addressText (address : Nat) : Marked (addressText address) :=
  marked_dollar.append_numeral (Text.digits?_hex address)

theorem marked_routineName (offset : Nat) : Marked (routineName offset) := by
  have stem : Marked "Func_" := by constructor <;> simp [marks]
  exact stem.append_numeral (Text.digits?_hex offset)

theorem LabelKind.marked_nameAt (kind : LabelKind) (offset : Nat) :
    Marked (kind.nameAt offset) := by
  have stem : Marked kind.stem := by cases kind <;> constructor <;> simp [marks, LabelKind.stem]
  exact stem.append_numeral (Text.digits?_hex offset)

theorem marked_signedText (value : Int) : Marked ("@" ++ signedText value) := by
  have stem (sign : Bool) : Marked ("@" ++ if sign then "-" else "+") := by
    cases sign <;> constructor <;> simp [marks]
  rw [signedText, ← String.append_assoc]
  simpa using (stem (value < 0)).append_numeral (digits?_toString value.natAbs)

/-! ## Texts tell what they were made from -/

theorem addressText_injective {address address' : Nat}
    (same : addressText address = addressText address') : address = address' := by
  rw [addressText] at same
  exact Text.hex_injective ((String.append_right_inj _).mp same)

theorem routineName_injective {offset offset' : Nat}
    (same : routineName offset = routineName offset') : offset = offset' := by
  rw [routineName] at same
  exact Text.hex_injective ((String.append_right_inj _).mp same)

theorem signedText_injective {value value' : Int} (same : signedText value = signedText value') :
    value = value' := by
  have characters := congrArg String.toList same
  simp only [signedText, String.toList_append] at characters
  have numerals {n m : Nat} (same : (toString n).toList = (toString m).toList) : n = m := by
    have read := digits?_toString n
    rw [same, digits?_toString m] at read
    exact (Option.some.inj read).symm
  by_cases negative : value < 0 <;> by_cases negative' : value' < 0 <;>
    simp only [negative, negative', if_true, if_false] at characters
  · have := numerals (List.append_cancel_left characters)
    omega
  · simp at characters
  · simp at characters
  · have := numerals (List.append_cancel_left characters)
    omega

theorem LabelKind.nameAt_ne_routineName (kind : LabelKind) (offset offset' : Nat) :
    kind.nameAt offset ≠ routineName offset' := by
  intro same
  have characters := congrArg String.toList same
  cases kind <;> simp [nameAt, stem, routineName] at characters

theorem LabelKind.nameAt_ne_signedText (kind : LabelKind) (offset : Nat) (value : Int) :
    kind.nameAt offset ≠ "@" ++ signedText value := by
  intro same
  have characters := congrArg String.toList same
  cases kind <;> simp [nameAt, stem] at characters

theorem routineName_ne_signedText (offset : Nat) (value : Int) :
    routineName offset ≠ "@" ++ signedText value := by
  intro same
  have characters := congrArg String.toList same
  simp [routineName] at characters

theorem routineName_ne_addressText (offset address : Nat) :
    routineName offset ≠ addressText address := by
  intro same
  have characters := congrArg String.toList same
  simp [routineName, addressText] at characters

/-! ## How operands are shown -/

/-- How an operand of the instruction at an offset may be shown in a listing without names. -/
inductive Operand.Shown (start offset : Nat) : Operand → String → Prop where
  | byte (value : UInt8) : Shown start offset (.byte value) ("$" ++ Text.hexWide 2 value.toNat)
  | high (address : Nat) : Shown start offset (.high address) (addressText address)
  | ahead {distance : Int} {target origin : Nat}
      (lands : Sweep.jumpTarget offset distance = target)
      (there : Bank.localAddress origin = Bank.localAddress target) :
      Shown start offset (.distance distance) (LabelKind.code.nameAt origin)
  | behind {distance : Int} {target : Nat} (lands : Sweep.jumpTarget offset distance = target) :
      Shown start offset (.distance distance) (routineName target)
  | outside (distance : Int) :
      Shown start offset (.distance distance) ("@" ++ signedText (2 + distance))
  | routine (word : Nat) :
      Shown start offset (.word word) (routineName (Bank.flatOffset word (Bank.ofOffset start)))
  | label {kind : LabelKind} {word origin : Nat} (there : Bank.localAddress origin = word) :
      Shown start offset (.word word) (kind.nameAt origin)
  | number (word : Nat) : Shown start offset (.word word) (addressText word)

namespace Operand.Shown

variable {start offset : Nat} {operand : Operand} {text : String}

theorem marked (shown : Shown start offset operand text) : Marked text := by
  cases shown with
  | byte value => exact marked_dollar.append_numeral (Text.digits?_hexWide 2 value.toNat)
  | high address | number address => exact marked_addressText address
  | ahead | label => exact LabelKind.marked_nameAt _ _
  | behind | routine => exact marked_routineName _
  | outside distance => exact marked_signedText _

theorem byte_injective {value value' : UInt8} (shown : Shown start offset (.byte value) text)
    (shown' : Shown start offset (.byte value') text) : value = value' := by
  generalize same : text = text' at shown'
  cases shown
  cases shown'
  have numerals := (String.append_right_inj _).mp same
  exact UInt8.toNat_inj.mp (Text.hexWide_injective numerals)

theorem high_injective {address address' : Nat} (shown : Shown start offset (.high address) text)
    (shown' : Shown start offset (.high address') text) : address = address' := by
  generalize same : text = text' at shown'
  cases shown
  cases shown'
  exact addressText_injective same

/-- Jumps that are shown alike go to the same place, since no two targets are a bank apart. -/
theorem distance_injective {distance distance' : Int}
    (near : -128 ≤ distance ∧ distance ≤ 127) (near' : -128 ≤ distance' ∧ distance' ≤ 127)
    (shown : Shown start offset (.distance distance) text)
    (shown' : Shown start offset (.distance distance') text) : distance = distance' := by
  generalize same : text = text' at shown'
  cases shown with
  | @ahead _ target _ lands there =>
      cases shown' with
      | @ahead _ target' _ lands' there' =>
          rw [Sweep.jumpTarget] at lands lands'
          obtain ⟨_, rfl⟩ := LabelKind.nameAt_injective same
          have sameAddress := there.symm.trans there'
          have sameTarget : target = target' := by
            rcases Nat.le_total target target' with le | le
            · exact Bank.eq_of_localAddress_of_near sameAddress le (by unfold Bank.size; omega)
            · exact (Bank.eq_of_localAddress_of_near sameAddress.symm le
                (by unfold Bank.size; omega)).symm
          omega
      | behind => exact absurd same (LabelKind.nameAt_ne_routineName _ _ _)
      | outside => exact absurd same (LabelKind.nameAt_ne_signedText _ _ _)
  | behind lands =>
      cases shown' with
      | ahead => exact absurd same.symm (LabelKind.nameAt_ne_routineName _ _ _)
      | behind lands' =>
          rw [Sweep.jumpTarget] at lands lands'
          obtain rfl := routineName_injective same
          omega
      | outside => exact absurd same (routineName_ne_signedText _ _)
  | outside =>
      cases shown' with
      | ahead => exact absurd same.symm (LabelKind.nameAt_ne_signedText _ _ _)
      | behind => exact absurd same.symm (routineName_ne_signedText _ _)
      | outside =>
          have := signedText_injective ((String.append_right_inj _).mp same)
          omega

/-- While neither of the banks two and three is mapped, words that are shown alike are the same. -/
theorem word_injective {word word' : Nat} (notTwo : Bank.ofOffset start ≠ 2)
    (notThree : Bank.ofOffset start ≠ 3) (isWord : word < 0x10000) (isWord' : word' < 0x10000)
    (shown : Shown start offset (.word word) text)
    (shown' : Shown start offset (.word word') text) : word = word' := by
  generalize same : text = text' at shown'
  cases shown with
  | routine =>
      cases shown' with
      | routine =>
          exact Bank.flatOffset_injective notTwo notThree isWord isWord'
            (routineName_injective same)
      | label => exact absurd same.symm (LabelKind.nameAt_ne_routineName _ _ _)
      | number => exact absurd same (routineName_ne_addressText _ _)
  | label there =>
      cases shown' with
      | routine => exact absurd same (LabelKind.nameAt_ne_routineName _ _ _)
      | label there' =>
          obtain ⟨_, rfl⟩ := LabelKind.nameAt_injective same
          exact there.symm.trans there'
      | number => exact absurd same (LabelKind.nameAt_ne_addressText _ _ _)
  | number =>
      cases shown' with
      | routine => exact absurd same.symm (routineName_ne_addressText _ _)
      | label => exact absurd same.symm (LabelKind.nameAt_ne_addressText _ _ _)
      | number => exact addressText_injective same

end Operand.Shown

end Sm83
