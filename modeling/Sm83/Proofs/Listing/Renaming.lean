import Mathlib
import Sm83.Proofs.Listing.Alike
import Sm83.Proofs.Sweep.Outcome

/-!
# Other names for the same places

Whether a word has a name decides whether it is taken for the address of data, and so where a sweep
finds data and where it ends. Which name it is makes no difference: with other names for the same
places a sweep fails alike or gives the same listing, in which only the names stand exchanged
(`disassemble_renamed`).
-/

namespace Sm83

/-- The same addresses have names, whichever bank is mapped. -/
def Names.SamePlaces (names names' : Names) : Prop :=
  ∀ address < UInt16.size, ∀ bank < UInt32.size,
    (names.at? address bank).isSome = (names'.at? address bank).isSome

theorem Names.SamePlaces.symm {names names' : Names} (same : names.SamePlaces names') :
    names'.SamePlaces names :=
  fun address word bank fits => (same address word bank fits).symm

/-- Operands are the same, or they show the two names of one address. -/
inductive Argument.Renamed (names names' : Names) : Option Argument → Option Argument → Prop where
  | same (argument : Option Argument) : Renamed names names' argument argument
  | name {address bank : Nat} {name name' : String} (known : names.at? address bank = some name)
      (known' : names'.at? address bank = some name') :
      Renamed names names' (some (.name name)) (some (.name name'))

/-- Items are the same but for the name that an operand shows. -/
inductive Item.Renamed (names names' : Names) : Item → Item → Prop where
  | code {instruction : Instruction} {argument argument' : Option Argument}
      (renamed : Argument.Renamed names names' argument argument') :
      Renamed names names' (.code instruction argument) (.code instruction argument')
  | data (value : UInt8) : Renamed names names' (.data value) (.data value)

theorem Item.Renamed.firstByte_eq {names names' : Names} {item item' : Item}
    (renamed : Item.Renamed names names' item item') : item'.firstByte = item.firstByte := by
  cases renamed <;> rfl

theorem Instruction.address_lt_of_decode? {byte? : Nat → Option UInt8} {offset address : Nat}
    {instruction : Instruction} (decoded : decode? byte? offset = some instruction)
    (refers : instruction.operand = .high address ∨ instruction.operand = .word address) :
    address < UInt16.size := by
  have bytes := (decode?_eq_some_iff.mp decoded).2
  rw [OperandBytes] at bytes
  cases kind : (Encoding.ofOpcode instruction.opcode).operand <;> simp only [kind] at bytes
  case none => simp [bytes.2] at refers
  case byte | distance =>
    obtain ⟨_, _, _, operand⟩ := bytes
    simp [operand] at refers
  case extended =>
    obtain ⟨_, _, _, operand⟩ := bytes
    simp [operand] at refers
  case highByte =>
    obtain ⟨_, value, _, operand⟩ := bytes
    have bound := value.toNat_lt
    simp only [operand, Operand.high.injEq, reduceCtorEq, or_false] at refers
    rw [← refers, UInt16.size]
    omega
  case word =>
    obtain ⟨_, low, high, _, _, operand⟩ := bytes
    simp only [operand, Operand.word.injEq, reduceCtorEq, false_or] at refers
    rw [← refers]
    exact wordOf_lt low high

namespace Sweep

variable {sweep : Sweep} {names : Names}

/-- The same sweep with other names. -/
def withNames (sweep : Sweep) (names : Names) : Sweep :=
  { sweep with names := names }

@[simp]
theorem names_withNames : (sweep.withNames names).names = names :=
  rfl

@[simp]
theorem bank_withNames : (sweep.withNames names).bank = sweep.bank :=
  rfl

@[simp]
theorem options_withNames : (sweep.withNames names).options = sweep.options :=
  rfl

theorem referJump_withNames (labels : LabelMap) (offset : Nat) (distance : Int) :
    (sweep.withNames names).referJump labels offset distance =
      sweep.referJump labels offset distance :=
  rfl

/-! ## Operands under other names -/

theorem renamed_of_samePlaces (same : sweep.names.SamePlaces names) {address bank : Nat}
    (word : address < UInt16.size) (fits : bank < UInt32.size) :
    (sweep.names.at? address bank = none ∧ names.at? address bank = none) ∨
      ∃ name name', sweep.names.at? address bank = some name ∧
        names.at? address bank = some name' := by
  have both := same address word bank fits
  cases known : sweep.names.at? address bank <;> cases known' : names.at? address bank <;>
    simp_all

theorem bank_lt (inside : sweep.start < sweep.ceiling) : max sweep.bank 1 < UInt32.size := by
  have limit : sweep.ceiling ≤ 0x200000 := ceiling_le_capacity sweep
  have word : UInt32.size = 0x100000000 := rfl
  rw [Sweep.bank, Bank.ofOffset, Bank.size]
  omega

theorem refer_withNames (same : sweep.names.SamePlaces names)
    (inside : sweep.start < sweep.ceiling) (labels : LabelMap) {offset : Nat}
    {instruction : Instruction}
    (decoded : Instruction.decode? sweep.byte? offset = some instruction) :
    ((sweep.withNames names).refer labels offset instruction).2 =
        (sweep.refer labels offset instruction).2 ∧
      Argument.Renamed sweep.names names (sweep.refer labels offset instruction).1
        ((sweep.withNames names).refer labels offset instruction).1 := by
  have window := bank_lt inside
  have mapped : sweep.bank < UInt32.size := Nat.lt_of_le_of_lt (Nat.le_max_left _ 1) window
  cases operand : instruction.operand with
  | none | byte value | distance distance =>
      simp only [refer, operand, referJump_withNames, true_and]
      exact .same _
  | high address =>
      have word := Instruction.address_lt_of_decode? decoded (.inl operand)
      simp only [refer, operand, names_withNames, bank_withNames]
      rcases renamed_of_samePlaces same word mapped with
        ⟨unknown, unknown'⟩ | ⟨name, name', known, known'⟩
      · simp only [unknown, unknown']
        exact ⟨trivial, .same _⟩
      · simp only [known, known']
        exact ⟨trivial, .name known known'⟩
  | word address =>
      have word := Instruction.address_lt_of_decode? decoded (.inr operand)
      simp only [refer, operand, referWord, wordName?, names_withNames, bank_withNames,
        options_withNames]
      rcases renamed_of_samePlaces same word window with
        ⟨unknown, unknown'⟩ | ⟨name, name', known, known'⟩
      · simp only [unknown, unknown']
        exact ⟨rfl, .same _⟩
      · simp only [known, known']
        exact ⟨trivial, .name known known'⟩

/-! ## Turns and runs under other names -/

theorem take?_withNames (same : sweep.names.SamePlaces names)
    (inside : sweep.start < sweep.ceiling) {labels : LabelMap} {offset : Nat} {inData : Bool}
    {item : Item} {taken : Cursor}
    (taking : sweep.take? labels offset inData = some (item, taken)) :
    ∃ item', (sweep.withNames names).take? labels offset inData = some (item', taken) ∧
      Item.Renamed sweep.names names item item' := by
  cases inData with
  | true =>
      obtain ⟨value, read, rfl, rfl⟩ := take?_data_iff.mp taking
      exact ⟨_, take?_data_iff.mpr ⟨value, read, rfl, rfl⟩, .data value⟩
  | false =>
      obtain ⟨instruction, decoded, rfl, rfl⟩ := take?_code_iff.mp taking
      obtain ⟨sameLabels, renamed⟩ := refer_withNames same inside labels decoded
      exact ⟨_, take?_code_iff.mpr ⟨instruction, decoded, rfl, by rw [sameLabels]⟩,
        .code renamed⟩

/-- A turn leaves the same cursor under other names, behind the same item but for a name. -/
theorem passed?_withNames (same : sweep.names.SamePlaces names)
    (inside : sweep.start < sweep.ceiling) {cursor after : Cursor} {step : Step} {ended : Bool}
    (turned : (sweep.turn cursor).passed? = some (step, after, ended)) :
    ∃ step', ((sweep.withNames names).turn cursor).passed? = some (step', after, ended) ∧
      Step.Alike (fun _ => Item.Renamed sweep.names names) step step' := by
  obtain ⟨item, taken, taking, rfl, rfl, rfl⟩ := passed?_eq_some_iff.mp turned
  obtain ⟨item', taking', renamed⟩ := take?_withNames same inside taking
  have onward : (sweep.withNames names).onward item' taken = sweep.onward item taken := by
    simp only [Sweep.onward, renamed.firstByte_eq]
    rfl
  have turned' := passed?_of_take? taking'
  rw [onward] at turned'
  refine ⟨_, turned', rfl, rfl, ?_, renamed⟩
  rw [stepOf, stepOf, onward]

/-- A run reaches the same cursor under other names, and stands there or goes on as the other one
does. -/
theorem run_withNames (same : sweep.names.SamePlaces names)
    (inside : sweep.start < sweep.ceiling) :
    ∃ steps', (sweep.withNames names).run =
        ⟨steps', sweep.run.cursor, sweep.run.finished⟩ ∧
      List.Forall₂ (Step.Alike fun _ => Item.Renamed sweep.names names) sweep.run.steps.toList
        steps'.toList := by
  obtain ⟨steps', reached', alike⟩ := sweep.reaches_run.follow (sweep.withNames names)
    (Step.Alike fun _ => Item.Renamed sweep.names names) rfl
    fun _ _ _ _ _ _ turned _ _ => passed?_withNames same inside turned
  refine ⟨steps'.toArray, ?_, alike⟩
  cases finished : sweep.run.finished with
  | true =>
      rw [finished] at reached'
      exact reached'.run_eq_of_ended
  | false =>
      rw [finished] at reached'
      refine reached'.run_eq_of_short ?_
      cases turned' : ((sweep.withNames names).turn sweep.run.cursor).passed? with
      | none => rfl
      | some passed =>
          have same' : (sweep.withNames names).names.SamePlaces sweep.names := same.symm
          obtain ⟨step', turned, _⟩ := passed?_withNames same' inside turned'
          exact absurd ((turn_of_run_unfinished finished).symm.trans turned) (by simp)

end Sweep

/-! ## Listings under other names -/

/-- The rows show the two names of one address in the same instruction. -/
def NameRows (names names' : Names) (layout : Layout) (row row' : String) : Prop :=
  ∃ (template : Template) (address bank : Nat) (name name' : String),
    names.at? address bank = some name ∧ names'.at? address bank = some name' ∧
      row = layout.indent ++ template.fill name ∧ row' = layout.indent ++ template.fill name'

theorem Item.Renamed.shownAlike (names names' : Names) (labels : LabelMap) (layout : Layout) :
    ShownAlike (fun _ => Item.Renamed names names') (NameRows names names' layout) labels
      layout := by
  rintro _ _ _ (renamed | value)
  · cases renamed with
    | same argument => exact .inl rfl
    | name known known' => exact .inr ⟨_, _, _, _, _, known, known', rfl, rfl⟩
  · exact .inl rfl

/-- With other names for the same places a sweep fails with the same error, or it has the same end
and the same labels and passes the same items, and its text is the same but for the names that
operands show. -/
theorem disassemble_renamed (image : ByteArray) {names names' : Names} (start : Nat)
    (options : Options) (same : names.SamePlaces names') :
    (∃ error, disassemble image names start options = .error error ∧
        disassemble image names' start options = .error error) ∨
      ∃ listing listing', disassemble image names start options = .ok listing ∧
        disassemble image names' start options = .ok listing' ∧
        listing'.endOffset = listing.endOffset ∧ listing'.stop = listing.stop ∧
        listing'.labels = listing.labels ∧
        List.Forall₂ (Step.Alike fun _ => Item.Renamed names names') listing.steps.toList
          listing'.steps.toList ∧
        ∀ layout, Text.SameBut (NameRows names names' layout) (listing.text layout)
          (listing'.text layout) := by
  let sweep : Sweep := ⟨image, names, start, options⟩
  let other := sweep.withNames names'
  cases objection : sweep.objection? with
  | some error =>
      have objection' : other.objection? = some error := objection
      exact .inl ⟨error, Sweep.listing_of_objection objection,
        Sweep.listing_of_objection objection'⟩
  | none =>
      have accepted : other.objection? = none := objection
      obtain ⟨steps', run, alike⟩ :=
        Sweep.run_withNames same (Sweep.start_lt_of_noObjection objection)
      cases finished : sweep.run.finished with
      | false =>
          have unfinished : other.run.finished = false := by rw [run]; exact finished
          have failed' := Sweep.listing_of_unfinished accepted unfinished
          rw [run] at failed'
          exact .inl ⟨_, Sweep.listing_of_unfinished objection finished, failed'⟩
      | true =>
          have finished' : other.run.finished = true := by rw [run]; exact finished
          have listed' := Sweep.listing_of_finished accepted finished'
          rw [run] at listed'
          refine .inr ⟨_, _, Sweep.listing_of_finished objection finished, listed', rfl, rfl, rfl,
            alike, fun layout => ?_⟩
          exact Listing.text_sameBut rfl rfl rfl (Item.Renamed.shownAlike _ _ _ _) alike

/-- The address 0x150 has a name and no other one has. -/
def namedEntry (name : String) : Names :=
  Names.empty.add .earlier 0 0x150 name

theorem at?_namedEntry (name : String) (address bank : Nat) :
    (namedEntry name).at? address bank = if address = 0x150 then some name else none := by
  have entered : (namedEntry name).entered? address bank =
      if address = 0x150 then some name else none := by
    have region : Region.ofAddress? 0x150 = some .rom := by decide
    simp only [namedEntry, Names.entered?, Names.add, Names.empty, region]
    by_cases here : address = 0x150
    · subst here
      simp [region, Bank.windowStart, Std.ExtHashMap.getElem_insertIfNew]
    · cases Region.ofAddress? address with
      | none => simp [here]
      | some region =>
          cases region <;> simp [here, Ne.symm here]
  rw [Names.at?, entered]
  split
  · next here => simp [here, Option.filter]
  · rfl

theorem samePlaces_namedEntry (name name' : String) :
    (namedEntry name).SamePlaces (namedEntry name') := by
  intro address _ bank _
  rw [at?_namedEntry, at?_namedEntry]
  split <;> rfl

/-- A call of the entry is listed under both of its names. -/
theorem disassemble_renamed_of_call :
    ∃ listing listing',
      disassemble ⟨#[0xcd, 0x50, 0x01, 0xc9]⟩ (namedEntry "Start") 0 {} = .ok listing ∧
      disassemble ⟨#[0xcd, 0x50, 0x01, 0xc9]⟩ (namedEntry "Main") 0 {} = .ok listing' ∧
      listing'.endOffset = listing.endOffset ∧ listing'.labels = listing.labels ∧
      ∀ layout, Text.SameBut (NameRows (namedEntry "Start") (namedEntry "Main") layout)
        (listing.text layout) (listing'.text layout) := by
  have may : Plain.MayEnd ⟨#[0xcd, 0x50, 0x01, 0xc9]⟩ 0 {} 1 := by decide
  have listed : ∃ listing,
      disassemble ⟨#[0xcd, 0x50, 0x01, 0xc9]⟩ (namedEntry "Start") 0 {} = .ok listing := by
    rcases @Plain.disassemble_cases ⟨#[0xcd, 0x50, 0x01, 0xc9]⟩ (namedEntry "Start") 0 {}
      (by decide) rfl (by simp) with ⟨_, _, listing, ok, _⟩ | ⟨never, _⟩
    · exact ⟨listing, ok⟩
    · exact absurd may (never 1)
  obtain ⟨listing, ok⟩ := listed
  rcases disassemble_renamed ⟨#[0xcd, 0x50, 0x01, 0xc9]⟩ 0 {}
    (samePlaces_namedEntry "Start" "Main") with ⟨error, failed, _⟩ |
    ⟨listing, listing', ok, ok', ends, _, labels, _, texts⟩
  · rw [ok] at failed
    cases failed
  · exact ⟨listing, listing', ok, ok', ends, labels, texts⟩

end Sm83
