import Mathlib
import Sm83.Proofs.Listing.Definitions

/-!
# The labels of a run

Whenever a turn is due, and when the run is over, every label is in its place and named after an
offset with its address; a code label counts as defined exactly if its line stands in the listing;
and no address is taken for code and data at once. `labels_accounted` takes this together with what
a turn leaves of the code labels.
-/

namespace Sm83

/-! ## Labels in their places -/

namespace Sweep

variable {sweep : Sweep} {labels after : LabelMap} {offset : Nat} {instruction : Instruction}
  {argument : Option Argument}

theorem stored_announce (sweep : Sweep) (offset : Nat) (stored : labels.Stored) :
    (sweep.announce labels offset).1.Stored := by
  rw [announce_fst]
  apply LabelMap.Stored.define
  apply LabelMap.Stored.define
  rw [prepare]
  split
  · apply LabelMap.Stored.reference
    split
    · exact stored.silence _
    · exact stored.insert _
  split
  · exact (stored.reference _ _).insert _
  · exact (stored.insert _).insert _

theorem Refers.stored (refers : sweep.Refers labels offset instruction argument after)
    (stored : labels.Stored) : after.Stored := by
  cases refers with
  | plain => exact stored
  | jump _ jumps =>
      cases jumps with
      | known => exact (stored.reference _ _).silence _
      | behind => exact stored.silence _
      | asks => exact (stored.insert _).silence _
  | explained =>
      rw [yieldToCode]
      split
      · exact stored.modify _ _ fun _ => ⟨rfl, rfl⟩
      · exact stored.insert _
  | loads =>
      rw [referData]
      split
      · exact stored.reference _ _
      · exact stored.insert _

variable {steps : List Step} {cursor behind : Cursor} {step : Step} {ended : Bool}

theorem Passes.stored (passes : sweep.Passes cursor step behind ended)
    (stored : cursor.labels.Stored) : behind.labels.Stored := by
  have announced := stored_announce sweep step.offset stored
  rcases passes.refers with ⟨_, _, same⟩ | ⟨_, _, _, refers⟩
  · rwa [same]
  · exact refers.stored announced

theorem Reaches.stored (reached : sweep.Reaches steps cursor ended) : cursor.labels.Stored := by
  induction reached with
  | first => exact LabelMap.stored_empty
  | pass _ turned ih => exact (passes_of_turn turned).stored ih

end Sweep

/-! ## Accounts -/

/-- Labels agree with the lines of a listing and with the offsets that a sweep has visited. -/
structure LabelMap.Accounts (labels : LabelMap) (lines : List Line) (visited : List Nat) :
    Prop where
  stored : ∀ kind address label, labels.get? kind address = some label →
    label.kind = kind ∧ label.address = address ∧ address < Bank.windowEnd ∧
      ∃ origin, Bank.localAddress origin = address ∧ label.name = kind.stem ++ Text.hex origin
  distinct : ∀ kind address address' label label', labels.get? kind address = some label →
    labels.get? kind address' = some label' → label.name = label'.name → address = address'
  defined_iff : ∀ address label, labels.get? .code address = some label →
    (label.defined = true ↔ Line.definition .code address ∈ lines)
  shown_iff : ∀ address, Line.definition .code address ∈ lines ↔
    ∃ offset ∈ visited, Bank.localAddress offset = address
  apart : ∀ address, labels.isUsed .code address = true → labels.isUsed .data address = false

theorem LabelMap.accounts_of_named {labels : LabelMap} {lines : List Line} {visited : List Nat}
    (stored : labels.Stored)
    (named : ∀ kind address label, labels.get? kind address = some label →
      ∃ origin, Bank.localAddress origin = address ∧ label.name = kind.nameAt origin)
    (shown : ∀ address, Line.definition .code address ∈ lines ↔
      ∃ offset ∈ visited, Bank.localAddress offset = address)
    (defined : ∀ address label, labels.get? .code address = some label →
      (label.defined = true ↔ ∃ offset ∈ visited, Bank.localAddress offset = address))
    (apart : ∀ address, labels.isUsed .code address = true →
      labels.isUsed .data address = false) :
    labels.Accounts lines visited := by
  refine ⟨fun kind address label found => ?_, ?_, fun address label found => ?_, shown, apart⟩
  · obtain ⟨sameKind, sameAddress⟩ := stored kind address label found
    obtain ⟨origin, there, name⟩ := named kind address label found
    exact ⟨sameKind, sameAddress, there ▸ Bank.localAddress_lt origin, origin, there, name⟩
  · intro kind address address' label label' found found' sameName
    obtain ⟨origin, there, name⟩ := named kind address label found
    obtain ⟨origin', there', name'⟩ := named kind address' label' found'
    obtain ⟨_, rfl⟩ := LabelKind.nameAt_injective (name.symm.trans (sameName.trans name'))
    exact there.symm.trans there'
  · rw [defined address label found, shown]

/-- Every code label is still there in later labels, with its name and all of its references. -/
def LabelMap.KeepsCode (labels later : LabelMap) : Prop :=
  ∀ address label, labels.get? .code address = some label →
    ∃ last, later.get? .code address = some last ∧ label.Keeps last

namespace Sweep

variable {sweep : Sweep} {steps : List Step} {cursor : Cursor} {ended : Bool}

/-- The lines of a listing with some steps. -/
def linesOf (sweep : Sweep) (steps : List Step) : List Line :=
  .header sweep.start :: steps.flatMap Step.lines

theorem definition_mem_linesOf (sweep : Sweep) (kind : LabelKind) (address : Nat) :
    Line.definition kind address ∈ sweep.linesOf steps ↔ Visited steps address := by
  have inStep (step : Step) : Line.definition kind address ∈ step.lines ↔
      Bank.localAddress step.offset = address := by
    have noItem : Line.definition kind address ≠ step.item.line := by
      cases step.item <;> simp [Item.line]
    have noSeparator (apart : Bool) :
        Line.definition kind address ∉ if apart then [Line.separator] else [] := by
      cases apart <;> simp
    cases kind <;> simp [Step.lines, noItem, noSeparator, @eq_comm _ address]
  simp [linesOf, Visited, inStep]

theorem visited_iff_mem_map {address : Nat} :
    Visited steps address ↔
      ∃ offset ∈ steps.map Step.offset, Bank.localAddress offset = address := by
  simp [Visited]

theorem Reaches.accounts (reached : sweep.Reaches steps cursor ended) :
    cursor.labels.Accounts (sweep.linesOf steps) (steps.map Step.offset) := by
  apply LabelMap.accounts_of_named reached.stored
  · exact fun kind address label found => reached.name_of_get? found
  · intro address
    rw [definition_mem_linesOf, visited_iff_mem_map]
  · intro address label found
    rw [reached.defined_code_iff found, visited_iff_mem_map]
  · exact fun address code => reached.not_both_used code

theorem Passes.keepsCode {behind : Cursor} {step : Step}
    (passes : sweep.Passes cursor step behind ended) : cursor.labels.KeepsCode behind.labels := by
  intro address label found
  obtain ⟨last, foundLast, keeps, _⟩ := passes.keeps_code found
  exact ⟨last, foundLast, keeps⟩

/-! ## Where a run breaks off -/

/-- The lines that an offset is announced by. -/
def announcement (sweep : Sweep) (cursor : Cursor) : List Line :=
  let address := Bank.localAddress cursor.offset
  (if (sweep.announce cursor.labels cursor.offset).2 then [.separator] else []) ++
    [.definition .code address, .definition .data address]

theorem announce_keepsCode (sweep : Sweep) (labels : LabelMap) (offset : Nat) :
    labels.KeepsCode (sweep.announce labels offset).1 := by
  intro address label found
  obtain ⟨last, foundLast, keeps, _⟩ := announce_keeps_code sweep offset found
  exact ⟨last, foundLast, keeps⟩

theorem Reaches.named_announce (reached : sweep.Reaches steps cursor ended) (kind : LabelKind)
    (address : Nat) (label : Label)
    (found : (sweep.announce cursor.labels cursor.offset).1.get? kind address = some label) :
    ∃ origin, Bank.localAddress origin = address ∧ label.name = kind.nameAt origin := by
  cases kind with
  | data => exact announce_dataNamed sweep cursor.offset reached.dataNamed address label found
  | code =>
      cases before : cursor.labels.get? .code address with
      | some earlier =>
          obtain ⟨later, foundLater, keeps, _⟩ := announce_keeps_code sweep cursor.offset before
          obtain rfl := Option.some.inj (foundLater.symm.trans found)
          rw [keeps.name_eq]
          exact reached.name_of_get? before
      | none =>
          obtain ⟨here, rfl⟩ := announce_makes_code before found
          exact ⟨cursor.offset, here, rfl⟩

theorem Reaches.defined_announce (reached : sweep.Reaches steps cursor ended) {address : Nat}
    {label : Label}
    (found : (sweep.announce cursor.labels cursor.offset).1.get? .code address = some label) :
    label.defined = true ↔ Visited steps address ∨ Bank.localAddress cursor.offset = address := by
  cases before : cursor.labels.get? .code address with
  | some earlier =>
      obtain ⟨later, foundLater, _, defined⟩ := announce_keeps_code sweep cursor.offset before
      obtain rfl := Option.some.inj (foundLater.symm.trans found)
      rw [defined, reached.defined_code_iff before]
  | none =>
      obtain ⟨here, rfl⟩ := announce_makes_code before found
      simp [passedCodeLabel, here]

theorem Reaches.accounts_announce (reached : sweep.Reaches steps cursor ended) :
    (sweep.announce cursor.labels cursor.offset).1.Accounts
      (sweep.linesOf steps ++ sweep.announcement cursor)
      (steps.map Step.offset ++ [cursor.offset]) := by
  have visited (address : Nat) : (∃ offset ∈ steps.map Step.offset ++ [cursor.offset],
      Bank.localAddress offset = address) ↔
        Visited steps address ∨ Bank.localAddress cursor.offset = address := by
    simp [Visited, or_and_right, exists_or]
  have announced (address : Nat) : Line.definition .code address ∈ sweep.announcement cursor ↔
      Bank.localAddress cursor.offset = address := by
    rw [announcement]
    split <;> simp [eq_comm]
  apply LabelMap.accounts_of_named (stored_announce sweep cursor.offset reached.stored)
  · exact reached.named_announce
  · intro address
    rw [List.mem_append, definition_mem_linesOf, announced, visited]
  · intro address label found
    rw [reached.defined_announce found, visited]
  · intro address code
    exact announce_not_both_used sweep cursor.offset reached.not_both_used code

end Sweep

/-! ## Accounts along a run -/

/-- The labels of a run agree with its lines and the offsets it has visited whenever a turn is due,
when it ends and where it breaks off, and no turn loses a code label, its name or a reference. -/
theorem labels_accounted (image : ByteArray) (names : Names) (start : Nat) (options : Options) :
    let sweep : Sweep := ⟨image, names, start, options⟩
    (∀ steps cursor ended, sweep.Reaches steps cursor ended →
      cursor.labels.Accounts (sweep.linesOf steps) (steps.map Step.offset)) ∧
    (∀ steps cursor step behind ended, sweep.Reaches steps cursor false →
      (sweep.turn cursor).passed? = some (step, behind, ended) →
        cursor.labels.KeepsCode behind.labels) ∧
    (∀ steps cursor, sweep.Reaches steps cursor false → (sweep.turn cursor).passed? = none →
      let labels := (sweep.announce cursor.labels cursor.offset).1
      labels.Accounts (sweep.linesOf steps ++ sweep.announcement cursor)
          (steps.map Step.offset ++ [cursor.offset]) ∧
        cursor.labels.KeepsCode labels) := by
  refine ⟨fun steps cursor ended reached => reached.accounts, ?_, ?_⟩
  · intro steps cursor step behind ended _ turned
    exact (Sweep.passes_of_turn turned).keepsCode
  · intro steps cursor reached _
    exact ⟨reached.accounts_announce, Sweep.announce_keepsCode _ cursor.labels cursor.offset⟩

/-- The labels of a jump to itself agree with its listing, which uses one as code and none as
data. -/
theorem labels_accounted_of_self_jump :
    ∃ listing, disassemble (ByteArray.mk #[0x18, 0xfe]) .empty 0 {} = .ok listing ∧
      listing.labels.Accounts listing.lines (listing.steps.toList.map Step.offset) ∧
      listing.labels.isUsed .code 0 = true ∧ listing.labels.isUsed .data 0 = false := by
  have run : (disassemble (ByteArray.mk #[0x18, 0xfe]) .empty 0 {}).map
      (fun listing => listing.labels.isUsed .code 0) = .ok true := by
    cbv
  cases ok : disassemble (ByteArray.mk #[0x18, 0xfe]) .empty 0 {} with
  | error error => rw [ok] at run; cases run
  | ok listing =>
      rw [ok] at run
      have used : listing.labels.isUsed .code 0 = true := Except.ok.inj run
      obtain ⟨atStart, inData, reached⟩ := reaches_of_disassemble ok
      have accounts := (labels_accounted (ByteArray.mk #[0x18, 0xfe]) .empty 0 {}).1 _ _ _ reached
      refine ⟨listing, rfl, ?_, used, accounts.apart 0 used⟩
      rwa [Listing.lines, atStart]

end Sm83
