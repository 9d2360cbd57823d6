import Mathlib
import Sm83.Proofs.Sweep.Outcome

/-!
# How far the counters of references go

A turn changes the labels by a few edits, one after the other, and all of them together raise no
counter by more than two: the definition that is passed counts one reference at most, and the
operand another one. So a counter is at most twice the number of turns that have begun, at the end
of each turn and between any two edits, and 32 bits hold it: `counters_bounded`.
-/

namespace Sm83

/-! ## Edits of labels -/

namespace LabelMap

/-- One change of the labels of a run. -/
inductive Edit where
  /-- Enters a label, in place of the one of its kind for its address. -/
  | enter (label : Label)
  /-- Counts one more reference to a label. -/
  | count (kind : LabelKind) (address : Nat)
  /-- Notes that the definition of a label has been passed. -/
  | define (kind : LabelKind) (address : Nat)
  /-- Takes its meaning from the data label for an address. -/
  | silence (address : Nat)
  /-- Takes its references from the data label for an address. -/
  | release (address : Nat)
  deriving DecidableEq, Repr

/-- The labels after an edit. -/
def edit (labels : LabelMap) : Edit → LabelMap
  | .enter label => labels.insert label
  | .count kind address => labels.reference kind address
  | .define kind address => labels.define kind address
  | .silence address => labels.silence address
  | .release address => labels.modify .data address Label.unreferenced

/-- The labels after edits, one after the other. -/
def editAll (labels : LabelMap) (edits : List Edit) : LabelMap :=
  edits.foldl edit labels

/-- How far an edit can raise a counter. -/
def Edit.cost : Edit → Nat
  | .enter label => label.usage
  | .count _ _ => 1
  | .define _ _ | .silence _ | .release _ => 0

/-- How far edits can raise a counter. -/
def cost (edits : List Edit) : Nat :=
  (edits.map Edit.cost).sum

/-- No label is counted more often than a bound. -/
def CountsUpTo (labels : LabelMap) (bound : Nat) : Prop :=
  ∀ kind address label, labels.get? kind address = some label → label.usage ≤ bound

variable {labels : LabelMap} {bound : Nat} {edits edits' : List Edit}

theorem editAll_append (labels : LabelMap) (edits edits' : List Edit) :
    labels.editAll (edits ++ edits') = (labels.editAll edits).editAll edits' :=
  List.foldl_append

theorem cost_append (edits edits' : List Edit) :
    cost (edits ++ edits') = cost edits + cost edits' := by
  simp [cost]

theorem countsUpTo_empty : empty.CountsUpTo 0 := by
  intro kind address label found
  simp at found

theorem CountsUpTo.mono {bound' : Nat} (counts : labels.CountsUpTo bound) (le : bound ≤ bound') :
    labels.CountsUpTo bound' :=
  fun kind address label found => (counts kind address label found).trans le

theorem CountsUpTo.insert (counts : labels.CountsUpTo bound) (label : Label) :
    (labels.insert label).CountsUpTo (bound + label.usage) := by
  intro kind address other found
  rw [get?_insert] at found
  split at found
  · cases found
    exact Nat.le_add_left _ _
  · exact (counts kind address other found).trans (Nat.le_add_right _ _)

theorem CountsUpTo.modify (counts : labels.CountsUpTo bound) (kind : LabelKind) (address : Nat)
    {f : Label → Label} {rise : Nat} (raises : ∀ label, (f label).usage ≤ label.usage + rise) :
    (labels.modify kind address f).CountsUpTo (bound + rise) := by
  intro kind' address' label found
  rw [get?_modify] at found
  split at found
  · obtain ⟨before, foundBefore, rfl⟩ := Option.map_eq_some_iff.mp found
    exact (raises before).trans (Nat.add_le_add_right (counts _ _ _ foundBefore) rise)
  · exact (counts kind' address' label found).trans (Nat.le_add_right _ _)

theorem CountsUpTo.edit (counts : labels.CountsUpTo bound) (edit : Edit) :
    (labels.edit edit).CountsUpTo (bound + edit.cost) := by
  cases edit with
  | enter label => exact counts.insert label
  | count kind address => exact counts.modify kind address fun _ => Nat.le_refl _
  | define kind address => exact counts.modify kind address fun _ => Nat.le_refl _
  | silence address => exact counts.modify .data address fun _ => Nat.zero_le _
  | release address => exact counts.modify .data address fun _ => Nat.zero_le _

theorem CountsUpTo.editAll (counts : labels.CountsUpTo bound) (edits : List Edit) :
    (labels.editAll edits).CountsUpTo (bound + cost edits) := by
  induction edits generalizing labels bound with
  | nil => exact counts
  | cons first rest ih =>
      have behind := ih (counts.edit first)
      rwa [Nat.add_assoc] at behind

end LabelMap

/-! ## The edits of a turn -/

namespace Sweep

open LabelMap (Edit cost)

/-- The edits that announce an offset. -/
def announceEdits (sweep : Sweep) (labels : LabelMap) (offset : Nat) : List Edit :=
  let address := Bank.localAddress offset
  (if labels.contains .code address then
    [if labels.contains .data address then .silence address else .enter (passedDataLabel offset),
      .count .code address]
  else if sweep.options.allowData && labels.contains .data address then
    [.count .data address, .enter (passedCodeLabel offset)]
  else [.enter (passedDataLabel offset), .enter (passedCodeLabel offset)]) ++
    [.define .code address, .define .data address]

/-- The edits of a relative jump. -/
def jumpEdits (sweep : Sweep) (labels : LabelMap) (offset : Nat) (distance : Int) : List Edit :=
  match jumpTarget offset distance with
  | .negSucc _ => []
  | .ofNat target =>
    let address := Bank.localAddress target
    (if labels.contains .code address then [.count .code address]
    else if target < sweep.start then []
    else [.enter (jumpLabel target)]) ++ [.silence address]

/-- The edits of a word behind an opcode. -/
def wordEdits (sweep : Sweep) (labels : LabelMap) (opcode : UInt8) (word : Nat) : List Edit :=
  let offset := Bank.flatOffset word sweep.bank
  if (sweep.wordName? word).isSome || Opcode.isCall opcode || Opcode.isJump opcode then []
  else if labels.isUsed .code word then
    [if labels.contains .data word then .release word else .enter (dataLabel word offset true)]
  else if Bank.windowEnd ≤ word || !sweep.options.allowData then []
  else [if labels.contains .data word then .count .data word
    else .enter (dataLabel word offset false)]

/-- The edits of an operand. -/
def referEdits (sweep : Sweep) (labels : LabelMap) (offset : Nat) (instruction : Instruction) :
    List Edit :=
  match instruction.operand with
  | .distance distance => sweep.jumpEdits labels offset distance
  | .word word => sweep.wordEdits labels instruction.opcode word
  | .none | .byte _ | .high _ => []

/-- The edits of the item at a cursor, once its offset is announced: an instruction that is there
refers to its operand. -/
def itemEdits (sweep : Sweep) (cursor : Cursor) : List Edit :=
  if cursor.inData then []
  else match Instruction.decode? sweep.byte? cursor.offset with
    | none => []
    | some instruction =>
      sweep.referEdits (sweep.announce cursor.labels cursor.offset).1 cursor.offset instruction

/-- The edits of the turn at a cursor. -/
def edits (sweep : Sweep) (cursor : Cursor) : List Edit :=
  sweep.announceEdits cursor.labels cursor.offset ++ sweep.itemEdits cursor

variable {sweep : Sweep} {cursor after : Cursor} {step : Step} {steps : List Step} {ended : Bool}

theorem announce_eq_editAll (sweep : Sweep) (labels : LabelMap) (offset : Nat) :
    (sweep.announce labels offset).1 = labels.editAll (sweep.announceEdits labels offset) := by
  rw [announce_fst, prepare, announceEdits]
  by_cases known : labels.contains .code (Bank.localAddress offset) = true
  · by_cases loaded : labels.contains .data (Bank.localAddress offset) = true <;>
      simp [known, loaded, LabelMap.editAll, LabelMap.edit]
  · by_cases loaded : (sweep.options.allowData &&
        labels.contains .data (Bank.localAddress offset)) = true <;>
      simp [known, loaded, LabelMap.editAll, LabelMap.edit]

theorem referJump_eq_editAll (sweep : Sweep) (labels : LabelMap) (offset : Nat) (distance : Int) :
    (sweep.referJump labels offset distance).2 =
      labels.editAll (sweep.jumpEdits labels offset distance) := by
  rw [referJump, jumpEdits]
  cases jumpTarget offset distance with
  | negSucc n => rfl
  | ofNat target =>
      by_cases known : labels.contains .code (Bank.localAddress target) = true
      · simp [known, LabelMap.editAll, LabelMap.edit]
      · by_cases before : target < sweep.start <;>
          simp [known, before, LabelMap.editAll, LabelMap.edit]

theorem referWord_eq_editAll (sweep : Sweep) (labels : LabelMap) (opcode : UInt8) (word : Nat) :
    (sweep.referWord labels opcode word).2 =
      labels.editAll (sweep.wordEdits labels opcode word) := by
  rw [referWord, wordEdits]
  cases sweep.wordName? word with
  | some name => rfl
  | none =>
      simp only [Option.isSome_none, Bool.false_or]
      split
      · rfl
      split
      · rw [yieldToCode]
        split <;> rfl
      split
      · rfl
      · rw [referData]
        split <;> rfl

theorem refer_eq_editAll (sweep : Sweep) (labels : LabelMap) (offset : Nat)
    (instruction : Instruction) :
    (sweep.refer labels offset instruction).2 =
      labels.editAll (sweep.referEdits labels offset instruction) := by
  rw [refer, referEdits]
  cases instruction.operand with
  | none | byte value => rfl
  | high address =>
      simp only
      split <;> rfl
  | distance distance => exact referJump_eq_editAll sweep labels offset distance
  | word word => exact referWord_eq_editAll sweep labels instruction.opcode word

/-- A turn that passes an item leaves the labels as its edits make them. -/
theorem Passes.labels_eq_editAll (passes : sweep.Passes cursor step after ended) :
    after.labels = cursor.labels.editAll (sweep.edits cursor) := by
  have takes := passes.takes
  have kind := passes.isData_eq
  rw [passes.offset_eq] at takes
  rw [edits, LabelMap.editAll_append, ← announce_eq_editAll, itemEdits]
  cases item : step.item with
  | data value =>
      rw [item] at takes kind
      rw [← kind]
      exact takes.2
  | code instruction argument =>
      rw [item] at takes kind
      obtain ⟨decoded, referred⟩ := takes
      have behind := congrArg Prod.snd referred
      rw [refer_eq_editAll] at behind
      simp only [← kind, Item.isData, decoded, Bool.false_eq_true, if_false]
      exact behind.symm

theorem announce_eq_editAll_of_short (short : (sweep.turn cursor).passed? = none) :
    (sweep.announce cursor.labels cursor.offset).1 =
      cursor.labels.editAll (sweep.edits cursor) := by
  have missing := take?_eq_none_of_turn short
  rw [edits, LabelMap.editAll_append, ← announce_eq_editAll, itemEdits]
  cases inData : cursor.inData with
  | true => rfl
  | false =>
      cases decoded : Instruction.decode? sweep.byte? cursor.offset with
      | none => rfl
      | some instruction => simp [take?, inData, decoded] at missing

/-! ## What a turn counts -/

theorem cost_announceEdits_le (sweep : Sweep) (labels : LabelMap) (offset : Nat) :
    cost (sweep.announceEdits labels offset) ≤ 1 := by
  rw [announceEdits, LabelMap.cost_append]
  split
  · split <;> exact Nat.le_refl 1
  split
  · exact Nat.le_refl 1
  · exact Nat.zero_le 1

theorem cost_jumpEdits_le (sweep : Sweep) (labels : LabelMap) (offset : Nat) (distance : Int) :
    cost (sweep.jumpEdits labels offset distance) ≤ 1 := by
  rw [jumpEdits]
  split
  · exact Nat.zero_le 1
  · rw [LabelMap.cost_append]
    split
    · exact Nat.le_refl 1
    split
    · exact Nat.zero_le 1
    · exact Nat.le_refl 1

theorem cost_wordEdits_le (sweep : Sweep) (labels : LabelMap) (opcode : UInt8) (word : Nat) :
    cost (sweep.wordEdits labels opcode word) ≤ 1 := by
  rw [wordEdits]
  split
  · exact Nat.zero_le 1
  split
  · split <;> exact Nat.zero_le 1
  split
  · exact Nat.zero_le 1
  · split
    · exact Nat.le_refl 1
    · exact Nat.zero_le 1

theorem cost_referEdits_le (sweep : Sweep) (labels : LabelMap) (offset : Nat)
    (instruction : Instruction) : cost (sweep.referEdits labels offset instruction) ≤ 1 := by
  rw [referEdits]
  split
  · exact cost_jumpEdits_le sweep labels offset _
  · exact cost_wordEdits_le sweep labels instruction.opcode _
  all_goals exact Nat.zero_le 1

theorem cost_itemEdits_le (sweep : Sweep) (cursor : Cursor) :
    cost (sweep.itemEdits cursor) ≤ 1 := by
  rw [itemEdits]
  split
  · exact Nat.zero_le 1
  split
  · exact Nat.zero_le 1
  · exact cost_referEdits_le sweep _ cursor.offset _

theorem cost_edits_le (sweep : Sweep) (cursor : Cursor) : cost (sweep.edits cursor) ≤ 2 := by
  rw [edits, LabelMap.cost_append]
  exact Nat.add_le_add (cost_announceEdits_le sweep cursor.labels cursor.offset)
    (cost_itemEdits_le sweep cursor)

/-! ## Counters along a run -/

theorem Reaches.countsUpTo (reached : sweep.Reaches steps cursor ended) :
    cursor.labels.CountsUpTo (2 * steps.length) := by
  induction reached with
  | first => exact LabelMap.countsUpTo_empty
  | @pass steps before after step ended reached turned ih =>
      rw [(passes_of_turn turned).labels_eq_editAll]
      have cost := cost_edits_le sweep before
      apply (ih.editAll (sweep.edits before)).mono
      rw [List.length_append, List.length_singleton]
      omega

/-- Between any two edits of a turn a counter is at most twice the number of turns, this one
included. -/
theorem Reaches.countsUpTo_editAll (reached : sweep.Reaches steps cursor ended)
    {done rest : List Edit} (cut : sweep.edits cursor = done ++ rest) :
    (cursor.labels.editAll done).CountsUpTo (2 * (steps.length + 1) - cost rest) := by
  have whole := cost_edits_le sweep cursor
  rw [cut, LabelMap.cost_append] at whole
  apply (reached.countsUpTo.editAll done).mono
  omega

end Sweep

theorem Tiles.length_le {first behind : Nat} {steps : List Step}
    (tiles : Tiles first steps behind) : first + steps.length ≤ behind := by
  induction steps generalizing first with
  | nil => exact Nat.le_of_eq tiles
  | cons step steps ih =>
      have rest := ih tiles.2
      have pos := step.item.size_pos
      rw [List.length_cons]
      omega

theorem Sweep.Reaches.length_le {sweep : Sweep} {steps : List Step} {cursor : Cursor}
    {ended : Bool} (reached : sweep.Reaches steps cursor ended) :
    steps.length ≤ cursor.offset - sweep.start ∧ cursor.offset - sweep.start ≤ 0x200000 := by
  have tiles := reached.tiles.length_le
  refine ⟨by omega, ?_⟩
  cases reached with
  | first => exact (Nat.sub_self sweep.start).le.trans (Nat.zero_le _)
  | pass _ turned =>
      have below := (passes_of_turn turned).le_ceiling
      have capacity : sweep.ceiling ≤ 0x200000 := sweep.ceiling_le_capacity
      omega

/-- Counters of references never outgrow 32 bits. Whenever a turn is due and when a run is over,
each is at most twice the number of turns taken. A turn changes the labels by its edits, one after
the other, whether it passes an item or runs out of bytes; between any two of them each counter is
at most twice the number of turns begun, of which there are at most as many as bytes from the start
to the offset, and one more; and an edit that counts a reference finds room for it. -/
theorem counters_bounded (image : ByteArray) (names : Names) (start : Nat) (options : Options) :
    let sweep : Sweep := ⟨image, names, start, options⟩
    (∀ steps cursor ended, sweep.Reaches steps cursor ended →
      cursor.labels.CountsUpTo (2 * steps.length) ∧ steps.length ≤ cursor.offset - start ∧
        cursor.offset - start ≤ 0x200000) ∧
    ∀ steps cursor, sweep.Reaches steps cursor false →
      let begun := steps.length + 1
      (begun ≤ cursor.offset - start + 1 ∧ cursor.offset - start + 1 ≤ 0x200001) ∧
      (∀ step after ended, (sweep.turn cursor).passed? = some (step, after, ended) →
        after.labels = cursor.labels.editAll (sweep.edits cursor)) ∧
      ((sweep.turn cursor).passed? = none →
        (sweep.announce cursor.labels cursor.offset).1 =
          cursor.labels.editAll (sweep.edits cursor)) ∧
      (∀ done rest, sweep.edits cursor = done ++ rest →
        (cursor.labels.editAll done).CountsUpTo (2 * begun)) ∧
      ∀ done kind address rest label, sweep.edits cursor = done ++ .count kind address :: rest →
        (cursor.labels.editAll done).get? kind address = some label →
          label.usage + 1 < UInt32.size := by
  intro sweep
  refine ⟨fun steps cursor ended reached => ⟨reached.countsUpTo, reached.length_le⟩, ?_⟩
  intro steps cursor reached begun
  obtain ⟨passed, capacity⟩ : begun ≤ cursor.offset - start + 1 ∧
      cursor.offset - start + 1 ≤ 0x200001 :=
    reached.length_le.imp Nat.succ_le_succ Nat.succ_le_succ
  refine ⟨⟨passed, capacity⟩, ?_, Sweep.announce_eq_editAll_of_short, ?_, ?_⟩
  · intro step after ended turned
    exact (Sweep.passes_of_turn turned).labels_eq_editAll
  · intro done rest cut
    exact (reached.countsUpTo_editAll cut).mono (Nat.sub_le _ _)
  · intro done kind address rest label cut found
    have counted := reached.countsUpTo_editAll cut kind address label found
    have room : 1 ≤ LabelMap.cost (.count kind address :: rest) := Nat.le_add_right 1 _
    have limit : UInt32.size = 0x100000000 := rfl
    omega

/-- A jump to itself counts a reference to its own label, behind the edits that pass the definition
of the label. -/
theorem counters_bounded_in_self_jump :
    (let sweep : Sweep := ⟨ByteArray.mk #[0x18, 0xfe], .empty, 0, {}⟩
      let announced := sweep.announceEdits sweep.first.labels 0
      sweep.edits sweep.first = announced ++ [.count .code 0, .silence 0] ∧
        ∃ label, (sweep.first.labels.editAll announced).get? .code 0 = some label ∧
          label.usage + 1 < UInt32.size) ∧
    ∃ listing, disassemble (ByteArray.mk #[0x18, 0xfe]) .empty 0 {} = .ok listing ∧
      listing.steps.toList.length = 1 ∧ listing.labels.isUsed .code 0 = true ∧
      listing.labels.CountsUpTo 2 := by
  have bounded := counters_bounded (ByteArray.mk #[0x18, 0xfe]) .empty 0 {}
  constructor
  · intro sweep announced
    have cut : sweep.edits sweep.first = announced ++ [.count .code 0, .silence 0] := by cbv
    have known : ((sweep.first.labels.editAll announced).get? .code 0).isSome = true := by cbv
    obtain ⟨label, found⟩ := Option.isSome_iff_exists.mp known
    exact ⟨cut, label, found,
      (bounded.2 [] sweep.first .first).2.2.2.2 announced .code 0 [.silence 0] label cut found⟩
  · have run : (disassemble (ByteArray.mk #[0x18, 0xfe]) .empty 0 {}).map (fun listing =>
        (listing.steps.toList.length, listing.labels.isUsed .code 0)) = .ok (1, true) := by
      cbv
    cases ok : disassemble (ByteArray.mk #[0x18, 0xfe]) .empty 0 {} with
    | error error => rw [ok] at run; cases run
    | ok listing =>
        rw [ok] at run
        obtain ⟨steps, used⟩ := Prod.mk.inj (Except.ok.inj run)
        obtain ⟨_, inData, reached⟩ := reaches_of_disassemble ok
        have counts := (bounded.1 _ _ _ reached).1
        rw [steps] at counts
        exact ⟨listing, rfl, steps, used, counts⟩

end Sm83
