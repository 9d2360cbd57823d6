import Mathlib
import Sm83.Proofs.Listing.Definitions

/-!
# Addresses that a listing loads

An instruction that loads the address of data shows the name of its data label, or else the address.
The name is meant for addresses that the sweep has visited, where the listing defines it. But the
second load of any other address shows it, too: `loaded_name_defined_iff` says when.
-/

namespace Sm83

/-- The operand that a listing shows for the data label for an address. -/
def Listing.loadedText (listing : Listing) (address : Nat) : String :=
  (Argument.label .data address).text listing.labels

theorem Listing.loadedText_of_used {listing : Listing} {address : Nat}
    (used : listing.labels.isUsed .data address = true) :
    listing.labels.definition? .data address = some (listing.loadedText address) := by
  rw [loadedText]
  rw [Argument.text_label]
  cases defined : listing.labels.definition? .data address with
  | some name => rfl
  | none =>
      rw [LabelMap.definition?_eq_none_iff.mp defined] at used
      cases used

theorem Listing.loadedText_of_unused {listing : Listing} {address : Nat}
    (unused : listing.labels.isUsed .data address = false) :
    listing.loadedText address = addressText address := by
  rw [loadedText]
  rw [Argument.text_label, LabelMap.definition?_eq_none_iff.mpr unused]
  rfl

/-- An instruction that loads an address shows the address or the name of a data label. The listing
defines each name that it shows for the address, and shows no name where the sweep has not been,
exactly if the sweep has visited the address or each load of it but the first is withdrawn later. -/
theorem loaded_name_defined_iff {image : ByteArray} {names : Names} {start : Nat}
    {options : Options} {listing : Listing} (layout : Layout)
    (ok : disassemble image names start options = .ok listing)
    (noHardStop : options.hardStop = false) {step : Step} {instruction : Instruction}
    {address : Nat} (passed : step ∈ listing.steps.toList)
    (loads : step.item = .code instruction (some (.label .data address))) :
    let shown := listing.loadedText address
    let resolvable := Visited listing.steps.toList address ∨
      ¬LoadedAgain start listing.steps.toList address
    listing.PrintsAt layout step.offset []
        (layout.indent ++ instruction.template.fill shown) ∧
      (shown = addressText address ∨
        ∃ origin, Bank.localAddress origin = address ∧ shown = ".data_" ++ Text.hex origin) ∧
      ((shown ≠ addressText address → listing.Defines layout shown) ↔ resolvable) ∧
      ((¬Visited listing.steps.toList address → shown = addressText address) ↔ resolvable) := by
  obtain ⟨_, inData, reached⟩ := reaches_of_disassemble ok
  have row := listing.printsAt_item layout passed
  rw [loads] at row
  have explained : listing.labels.contains .code address = true →
      Visited listing.steps.toList address := by
    intro present
    rcases (reached.contains_code_iff address).mp present with visited | asked
    · exact visited
    · exact reached.landed noHardStop asked
  refine ⟨row, ?_⟩
  cases used : listing.labels.isUsed .data address with
  | true =>
      have defined := Listing.loadedText_of_used used
      obtain ⟨origin, there, named⟩ := reached.name_of_definition? defined
      have isName : listing.loadedText address ≠ addressText address := by
        rw [named]
        exact LabelKind.data.nameAt_ne_addressText origin address
      have loadedAgain : ¬Visited listing.steps.toList address →
          LoadedAgain start listing.steps.toList address := by
        intro unvisited
        have unexplained : listing.labels.contains .code address = false := by
          simpa using mt explained unvisited
        exact (reached.data_of_unexplained unexplained).2.mp used
      refine ⟨.inr ⟨origin, there, named⟩, ⟨fun defines => ?_, fun resolvable _ => ?_⟩,
        ⟨fun hides => ?_, fun resolvable unvisited => ?_⟩⟩
      · exact .inl (Listing.visited_of_defines reached defined (defines isName))
      · rcases resolvable with visited | once
        · exact Listing.defines_of_visited layout reached defined visited
        · exact Listing.defines_of_visited layout reached defined
            (Classical.byContradiction fun unvisited => once (loadedAgain unvisited))
      · exact .inl (Classical.byContradiction fun unvisited => isName (hides unvisited))
      · rcases resolvable with visited | once
        · exact absurd visited unvisited
        · exact absurd (loadedAgain unvisited) once
  | false =>
      have isAddress := Listing.loadedText_of_unused used
      have resolvable : Visited listing.steps.toList address ∨
          ¬LoadedAgain start listing.steps.toList address := by
        by_cases visited : Visited listing.steps.toList address
        · exact .inl visited
        · have unexplained : listing.labels.contains .code address = false := by
            simpa using mt explained visited
          refine .inr fun again => ?_
          rw [(reached.data_of_unexplained unexplained).2.mpr again] at used
          cases used
      refine ⟨.inl isAddress, ⟨fun _ => resolvable, fun _ isName => absurd isAddress isName⟩,
        ⟨fun _ => resolvable, fun _ _ => isAddress⟩⟩

/-- Two loads of an address that the sweep does not visit show a name that no row defines. -/
theorem loaded_name_dangles :
    (disassemble (ByteArray.mk #[0x21, 0x00, 0x02, 0x11, 0x00, 0x02, 0xc9]) .empty 0
        { allowData := true }).map (Listing.text · {}) =
      .ok "Func_0: ; 0 (0:0)\n\tld hl, .data_200\n\tld de, .data_200\n\tret\n; 0x7" := by
  cbv

/-- The name that two loads show is not defined, because the second load is behind the first and the
sweep has not been at the address. -/
theorem loaded_name_defined_iff_of_second_load :
    ∃ listing, disassemble (ByteArray.mk #[0x21, 0x00, 0x02, 0x11, 0x00, 0x02, 0xc9]) .empty 0
        { allowData := true } = .ok listing ∧
      ¬Visited listing.steps.toList 0x200 ∧ LoadedAgain 0 listing.steps.toList 0x200 ∧
      listing.loadedText 0x200 ≠ addressText 0x200 ∧
      ¬listing.Defines {} (listing.loadedText 0x200) := by
  let first : Step :=
    ⟨0, .code ⟨0x21, .around "ld hl, " "", .word 0x200⟩ (some (.label .data 0x200)), false, false⟩
  let again : Step :=
    ⟨3, .code ⟨0x11, .around "ld de, " "", .word 0x200⟩ (some (.label .data 0x200)), false, false⟩
  let last : Step := ⟨6, .code ⟨0xc9, .fixed "ret", .none⟩ none, false, false⟩
  have run : (disassemble (ByteArray.mk #[0x21, 0x00, 0x02, 0x11, 0x00, 0x02, 0xc9]) .empty 0
      { allowData := true }).map (·.steps.toList) = .ok [first, again, last] := by
    cbv
  cases ok : disassemble (ByteArray.mk #[0x21, 0x00, 0x02, 0x11, 0x00, 0x02, 0xc9]) .empty 0
      { allowData := true } with
  | error error => rw [ok] at run; cases run
  | ok listing =>
      rw [ok] at run
      have steps : listing.steps.toList = [first, again, last] := Except.ok.inj run
      have unvisited : ¬Visited listing.steps.toList 0x200 := by
        rw [steps]
        rw [Visited]
        decide
      have loadedAgain : LoadedAgain 0 listing.steps.toList 0x200 := by
        rw [steps]
        refine ⟨[first], again, [last], rfl, ⟨first, by simp, _, rfl⟩, ⟨_, rfl⟩, ?_⟩
        intro step passed
        rw [List.mem_singleton.mp passed]
        rintro ⟨target, jump, _⟩
        cases jump
      have passed : first ∈ listing.steps.toList := by simp [steps]
      obtain ⟨_, _, defines, hides⟩ := loaded_name_defined_iff {} ok rfl passed rfl
      have dangling : ¬(Visited listing.steps.toList 0x200 ∨
          ¬LoadedAgain 0 listing.steps.toList 0x200) := by
        rintro (visited | once)
        · exact unvisited visited
        · exact once loadedAgain
      refine ⟨listing, rfl, unvisited, loadedAgain, fun isAddress => ?_, fun defined => ?_⟩
      · exact dangling (hides.mp fun _ => isAddress)
      · exact dangling (defines.mp fun _ => defined)

end Sm83
