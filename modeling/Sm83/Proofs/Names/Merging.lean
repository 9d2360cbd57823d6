import Mathlib
import Sm83.Proofs.Names.Constants
import Sm83.Proofs.Names.Entries

/-!
# What a file of constants changes

The constants of a file for a region of memory are entered one by one over what stands there, and
the last one for an address stays. Nothing else changes, so files for one region may be joined and
files for different regions may be read in either order: `constants_taken`.
-/

namespace Sm83

/-! ## The constants of a text -/

namespace Constants

/-- A field is a word in letters of either case. -/
def Says (word : String) (field : List Char) : Prop :=
  field.map Char.toLower = word.toList

/-- Fields define a name: `name EQU value`, or the same behind `DEF`. -/
inductive Assigns : List (List Char) → List Char → List (List Char) → Prop where
  | plain {name equ : List Char} {value : List (List Char)} (noLead : ¬Says "def" name)
      (isEqu : Says "equ" equ) (notEmpty : value ≠ []) : Assigns (name :: equ :: value) name value
  | led {lead name equ : List Char} {value : List (List Char)} (isLead : Says "def" lead)
      (isEqu : Says "equ" equ) (notEmpty : value ≠ []) :
      Assigns (lead :: name :: equ :: value) name value

/-- In front of its remark a line defines a name as a number that is an address in a region. -/
def Gives (region : Region) (line : List Char) (constant : String × Nat) : Prop :=
  ∃ name value, Assigns (Text.fields (Text.before ';' line)) name value ∧
    constant.1 = String.ofList name ∧ literal? ([' '].intercalate value) = some constant.2 ∧
    Region.ofAddress? constant.2 = some region

/-- The lines of a text give constants for a region, each line one or none, in this order. -/
def Holds (region : Region) (text : String) (constants : List (String × Nat)) : Prop :=
  ∃ given, List.Forall₂ (fun line said => ∀ constant, said = some constant ↔
      Gives region line constant) (Text.lines text.toList) given ∧
    given.reduceOption = constants

theorem isWord_iff {word : String} {field : List Char} :
    isWord word field = true ↔ Says word field := by
  simp [isWord, Says]

theorem definition?_eq_some_iff {fields value : List (List Char)} {name : List Char} :
    definition? fields = some (name, value) ↔
      ∃ equ, fields = name :: equ :: value ∧ Says "equ" equ ∧ value ≠ [] := by
  unfold definition?
  split
  · next name' equ field more =>
      by_cases isEqu : Says "equ" equ
      · rw [if_pos (isWord_iff.mpr isEqu)]
        constructor
        · rintro ⟨⟩
          exact ⟨equ, rfl, isEqu, by simp⟩
        · rintro ⟨_, ⟨⟩, _, _⟩
          rfl
      · rw [if_neg (mt isWord_iff.mp isEqu)]
        refine iff_of_false (by simp) ?_
        rintro ⟨_, ⟨⟩, isEqu', _⟩
        exact isEqu isEqu'
  · next short =>
      refine iff_of_false (by simp) ?_
      rintro ⟨equ, rfl, _, notEmpty⟩
      obtain ⟨field, more, rfl⟩ := List.exists_cons_of_ne_nil notEmpty
      exact short _ _ _ _ rfl

theorem split?_eq_some_iff {line name text : List Char} :
    split? line = some (name, text) ↔
      ∃ value, Assigns (Text.fields (Text.before ';' line)) name value ∧
        text = [' '].intercalate value := by
  rw [split?]
  generalize Text.fields (Text.before ';' line) = fields
  simp only [Option.map_eq_some_iff, Prod.exists, Prod.mk.injEq, definition?_eq_some_iff]
  cases fields with
  | nil =>
      constructor
      · rintro ⟨_, _, ⟨_, ⟨⟩, _⟩, _⟩
      · rintro ⟨_, ⟨⟩, _⟩
  | cons first rest =>
      by_cases isLead : Says "def" first
      · simp only [isWord_iff.mpr isLead, if_true]
        constructor
        · rintro ⟨_, value, ⟨equ, rfl, isEqu, notEmpty⟩, rfl, rfl⟩
          exact ⟨value, .led isLead isEqu notEmpty, rfl⟩
        · rintro ⟨value, assigns, rfl⟩
          cases assigns with
          | plain noLead => exact absurd isLead noLead
          | led _ isEqu notEmpty => exact ⟨name, value, ⟨_, rfl, isEqu, notEmpty⟩, rfl, rfl⟩
      · simp only [mt isWord_iff.mp isLead]
        constructor
        · rintro ⟨_, value, ⟨equ, parts, isEqu, notEmpty⟩, rfl, rfl⟩
          obtain ⟨rfl, rfl⟩ := List.cons.inj parts
          exact ⟨value, .plain isLead isEqu notEmpty, rfl⟩
        · rintro ⟨value, assigns, rfl⟩
          cases assigns with
          | plain _ isEqu notEmpty => exact ⟨name, value, ⟨_, rfl, isEqu, notEmpty⟩, rfl, rfl⟩
          | led isLead' => exact absurd isLead' isLead

theorem gives_iff {region : Region} {line : List Char} {constant : String × Nat} :
    Gives region line constant ↔ ∃ name text, split? line = some (name, text) ∧
      constant.1 = String.ofList name ∧ literal? text = some constant.2 ∧
      Region.ofAddress? constant.2 = some region := by
  simp only [Gives, split?_eq_some_iff]
  constructor
  · rintro ⟨name, value, assigns, rest⟩
    exact ⟨name, _, ⟨value, assigns, rfl⟩, rest⟩
  · rintro ⟨name, _, ⟨value, assigns, rfl⟩, rest⟩
    exact ⟨name, value, assigns, rest⟩

theorem inRegion?_eq_some_iff {region : Region} {line : List Char} {constant : String × Nat} :
    (readLine line).inRegion? region = some constant ↔ Gives region line constant := by
  rw [gives_iff, readLine]
  cases parts : split? line with
  | none => simp [Reading.inRegion?]
  | some found =>
      obtain ⟨name, text⟩ := found
      dsimp only
      cases evaluated : literal? text with
      | none => simp [evaluated, Reading.inRegion?]
      | some value =>
          obtain ⟨given, number⟩ := constant
          simp only [Reading.inRegion?]
          split
          · next inside =>
              constructor
              · rintro ⟨⟩
                exact ⟨name, text, rfl, rfl, evaluated, inside.2⟩
              · rintro ⟨_, _, ⟨⟩, rfl, evaluated', _⟩
                cases evaluated.symm.trans evaluated'
                rfl
          · next outside =>
              refine iff_of_false (by simp) ?_
              rintro ⟨_, _, ⟨⟩, _, evaluated', inside⟩
              cases evaluated.symm.trans evaluated'
              exact outside ⟨Region.lt_of_ofAddress? inside, inside⟩

theorem holds_iff {region : Region} {text : String} {constants : List (String × Nat)} :
    Holds region text constants ↔ constants = inRegion region text := by
  have said : (fun line given => ∀ constant, given = some constant ↔ Gives region line constant) =
      fun line given => (readLine line).inRegion? region = given := by
    funext line given
    simp only [← inRegion?_eq_some_iff, eq_iff_iff]
    exact ⟨fun same => (Option.ext same).symm, by rintro rfl; simp⟩
  have lines (given : List (Option (String × Nat))) :
      List.Forall₂ (fun line given => (readLine line).inRegion? region = given)
        (Text.lines text.toList) given ↔
      (Text.lines text.toList).map (fun line => (readLine line).inRegion? region) = given := by
    rw [← List.forall₂_eq_eq_eq, List.forall₂_map_left_iff]
  rw [Holds, said]
  simp only [lines, exists_eq_left', List.reduceOption, List.filterMap_map]
  exact eq_comm

end Constants

/-! ## Entering constants -/

namespace Names

open Constants (Holds inRegion)

/-- A map in which constants are entered under their values, each over what stands there. -/
def enter {key : Type} [BEq key] [Hashable key] [EquivBEq key] [LawfulHashable key]
    (map : Std.ExtHashMap key String) (constants : List (String × key)) :
    Std.ExtHashMap key String :=
  constants.foldl (fun map constant => map.insert constant.2 constant.1) map

/-- The name of the last constant with a number. -/
def lastName? (constants : List (String × Nat)) (number : Nat) : Option String :=
  (constants.reverse.find? fun constant => constant.2 == number).map Prod.fst

theorem enter_append_singleton (map : Std.ExtHashMap Nat String)
    (constants : List (String × Nat)) (constant : String × Nat) :
    enter map (constants ++ [constant]) =
      (enter map constants).insert constant.2 constant.1 := by
  rw [enter, List.foldl_append, List.foldl_cons, List.foldl_nil, ← enter]

theorem lastName?_append_singleton (constants : List (String × Nat)) (constant : String × Nat)
    (number : Nat) :
    lastName? (constants ++ [constant]) number =
      if constant.2 = number then some constant.1 else lastName? constants number := by
  by_cases same : constant.2 = number <;> simp [lastName?, same]

/-- The last constant with a number counts, and without one what stood there before. -/
theorem getElem?_enter (map : Std.ExtHashMap Nat String) (constants : List (String × Nat))
    (number : Nat) :
    (enter map constants)[number]? = (lastName? constants number).or map[number]? := by
  induction constants using List.reverseRecOn with
  | nil => rfl
  | append_singleton constants constant ih =>
      rw [enter_append_singleton, lastName?_append_singleton, Std.ExtHashMap.getElem?_insert, ih]
      by_cases same : constant.2 = number <;> simp [same]

theorem lastName?_eq_none_iff {constants : List (String × Nat)} {number : Nat} :
    lastName? constants number = none ↔ number ∉ constants.map Prod.snd := by
  rw [lastName?, Option.map_eq_none_iff, List.find?_eq_none]
  constructor
  · intro none listed
    obtain ⟨constant, entered, rfl⟩ := List.mem_map.mp listed
    exact none constant (List.mem_reverse.mpr entered) (beq_self_eq_true _)
  · intro none constant entered same
    obtain rfl := eq_of_beq same
    exact none (List.mem_map_of_mem (List.mem_reverse.mp entered))

theorem mem_enter_iff (map : Std.ExtHashMap Nat String) (constants : List (String × Nat))
    (number : Nat) :
    number ∈ enter map constants ↔ number ∈ constants.map Prod.snd ∨ number ∈ map := by
  rw [Std.ExtHashMap.mem_iff_isSome_getElem?, getElem?_enter,
    Std.ExtHashMap.mem_iff_isSome_getElem?]
  cases last : lastName? constants number with
  | none => simp [lastName?_eq_none_iff.mp last]
  | some name =>
      have listed : number ∈ constants.map Prod.snd := by
        by_contra missing
        rw [lastName?_eq_none_iff.mpr missing] at last
        cases last
      simp [listed]

theorem size_enter (map : Std.ExtHashMap Nat String) (constants : List (String × Nat)) :
    (enter map constants).size =
      map.size + ((constants.map Prod.snd).toFinset.filter (· ∉ map)).card := by
  induction constants using List.reverseRecOn with
  | nil => rfl
  | append_singleton constants constant ih =>
      have numbers : ((constants ++ [constant]).map Prod.snd).toFinset =
          insert constant.2 (constants.map Prod.snd).toFinset := by
        simp [Finset.union_comm]
      rw [enter_append_singleton, Std.ExtHashMap.size_insert, ih, numbers, Finset.filter_insert]
      by_cases known : constant.2 ∈ map
      · simp [mem_enter_iff, known]
      · by_cases listed : constant.2 ∈ constants.map Prod.snd
        · have entered : constant.2 ∈ (constants.map Prod.snd).toFinset.filter (· ∉ map) := by
            simp only [Finset.mem_filter, List.mem_toFinset]
            exact ⟨listed, known⟩
          simp only [mem_enter_iff, listed, true_or, if_true, known, not_false_eq_true,
            Finset.insert_eq_of_mem entered]
        · have fresh : constant.2 ∉ (constants.map Prod.snd).toFinset.filter (· ∉ map) := by
            simp only [Finset.mem_filter, List.mem_toFinset]
            exact fun entered => listed entered.1
          simp only [mem_enter_iff, listed, known, or_self, if_false, not_false_eq_true, if_true,
            Finset.card_insert_of_notMem fresh, Nat.add_assoc]

/-- Constants with different numbers may be entered in either order. -/
theorem enter_comm (map : Std.ExtHashMap Nat String) {constants constants' : List (String × Nat)}
    (apart : ∀ number ∈ constants.map Prod.snd, number ∉ constants'.map Prod.snd) :
    enter (enter map constants) constants' = enter (enter map constants') constants := by
  apply Std.ExtHashMap.ext_getElem?
  intro number
  simp only [getElem?_enter]
  by_cases listed : number ∈ constants.map Prod.snd
  · rw [lastName?_eq_none_iff.mpr (apart number listed)]
    simp
  · rw [lastName?_eq_none_iff.mpr listed]
    simp

/-! ## Names with constants -/

variable {names : Names} {region : Region}

/-- The regions that constants are read for. -/
def constantRegions : List Region := [.vram, .hardware, .hram]

theorem at?_of_constantRegion {address : Nat} (inside : Region.ofAddress? address = some region)
    (isOne : region ∈ constantRegions) (names : Names) (bank : Nat) :
    names.at? address bank = names.unbanked[address]? := by
  have pos : 0 < address := pos_of_region inside (by rintro rfl; simp [constantRegions] at isOne)
  rw [at?_eq_entered? names pos, entered?, inside]
  cases region <;> simp_all [constantRegions]

theorem add_later (names : Names) {address : Nat} (inside : Region.ofAddress? address = some region)
    (isOne : region ∈ constantRegions) (bank : Nat) (name : String) :
    names.add .later bank address name =
      { names with unbanked := names.unbanked.insert address name } := by
  rw [add, inside]
  cases region <;> simp_all [constantRegions]

theorem region_of_listed {text : String} {number : Nat}
    (listed : number ∈ (inRegion region text).map Prod.snd) :
    Region.ofAddress? number = some region := by
  obtain ⟨constant, entered, rfl⟩ := List.mem_map.mp listed
  exact Constants.region_of_mem_inRegion entered

theorem names_addConstants_eq (names : Names) (isOne : region ∈ constantRegions) (text : String) :
    (names.addConstants region text).names =
      { names with unbanked := enter names.unbanked (inRegion region text) } := by
  have inside : ∀ constant ∈ inRegion region text, Region.ofAddress? constant.2 = some region :=
    fun _ entered => Constants.region_of_mem_inRegion entered
  rw [names_addConstants]
  generalize inRegion region text = constants at inside
  induction constants generalizing names with
  | nil => rfl
  | cons constant constants ih =>
      obtain ⟨name, address⟩ := constant
      obtain ⟨first, rest⟩ := List.forall_mem_cons.mp inside
      rw [List.foldl_cons]
      dsimp only
      rw [add_later names first isOne, ih _ rest]
      rfl

/-- What becomes of names when constants for a region are added. -/
structure Takes (names : Names) (region : Region) (constants : List (String × Nat))
    (merged : Constants.Merged) : Prop where
  added : merged.added = constants.length
  inside : ∀ address bank, Region.ofAddress? address = some region →
    merged.names.at? address bank = (lastName? constants address).or (names.at? address bank)
  outside : ∀ address bank, Region.ofAddress? address ≠ some region →
    merged.names.at? address bank = names.at? address bank
  offset : ∀ name, merged.names.offset? name = names.offset? name
  romCount : merged.names.romCount = names.romCount
  ramCount : merged.names.ramCount = names.ramCount +
    ((constants.map Prod.snd).toFinset.filter fun number => names.at? number 0 = none).card

theorem takes_inRegion (names : Names) (isOne : region ∈ constantRegions) (text : String) :
    names.Takes region (inRegion region text) (names.addConstants region text) where
  added := added_addConstants names region text
  inside := by
    intro address bank inside
    rw [at?_of_constantRegion inside isOne, at?_of_constantRegion inside isOne,
      names_addConstants_eq names isOne, getElem?_enter]
  outside := by
    intro address bank outside
    rw [names_addConstants_eq names isOne]
    cases elsewhere : Region.ofAddress? address with
    | none => rw [at?_eq_none_of_region elsewhere, at?_eq_none_of_region elsewhere]
    | some region' =>
        by_cases isOne' : region' ∈ constantRegions
        · have notListed : address ∉ (inRegion region text).map Prod.snd :=
            fun listed => outside (region_of_listed listed)
          rw [at?_of_constantRegion elsewhere isOne', at?_of_constantRegion elsewhere isOne',
            getElem?_enter, lastName?_eq_none_iff.mpr notListed, Option.none_or]
        · rw [at?, at?, entered?, entered?, elsewhere]
          cases region' <;> simp_all [constantRegions]
  offset := by
    intro name
    rw [names_addConstants_eq names isOne]
    rfl
  romCount := by
    rw [names_addConstants_eq names isOne]
    rfl
  ramCount := by
    have fresh : ∀ number ∈ ((inRegion region text).map Prod.snd).toFinset,
        names.at? number 0 = none ↔ number ∉ names.unbanked := by
      intro number listed
      have inside := region_of_listed (List.mem_toFinset.mp listed)
      simp [at?_of_constantRegion inside isOne]
    rw [names_addConstants_eq names isOne, ramCount, ramCount, size_enter,
      Finset.filter_congr fresh]
    exact Nat.add_right_comm _ _ _

/-! ## Several files -/

theorem inRegion_append_newline (region : Region) (text rest : String) :
    inRegion region (text ++ "\n" ++ rest) =
      inRegion region (text ++ "\n") ++ inRegion region rest := by
  have newline : "\n".toList = ['\n'] := by simp
  rw [inRegion, inRegion, inRegion, String.toList_append, String.toList_append, newline,
    List.append_assoc, List.singleton_append, Text.lines_append_newline, List.filterMap_append]

/-- A text that ends with a line feed may be added by itself, and what follows it behind it. -/
theorem addConstants_append_newline (names : Names) (isOne : region ∈ constantRegions)
    (text rest : String) :
    (names.addConstants region (text ++ "\n" ++ rest)).names =
        ((names.addConstants region (text ++ "\n")).names.addConstants region rest).names ∧
      (names.addConstants region (text ++ "\n" ++ rest)).added =
        (names.addConstants region (text ++ "\n")).added +
          ((names.addConstants region (text ++ "\n")).names.addConstants region rest).added := by
  constructor
  · simp only [names_addConstants_eq _ isOne, inRegion_append_newline, enter, List.foldl_append]
  · simp only [added_addConstants, inRegion_append_newline, List.length_append]

theorem addConstants_comm (names : Names) {region' : Region} (isOne : region ∈ constantRegions)
    (isOne' : region' ∈ constantRegions) (apart : region' ≠ region) (text text' : String) :
    ((names.addConstants region text).names.addConstants region' text').names =
      ((names.addConstants region' text').names.addConstants region text).names := by
  have disjoint : ∀ number ∈ (inRegion region text).map Prod.snd,
      number ∉ (inRegion region' text').map Prod.snd := by
    intro number listed listed'
    have inside := region_of_listed listed
    rw [region_of_listed listed'] at inside
    exact apart (Option.some.inj inside)
  simp only [names_addConstants_eq _ isOne, names_addConstants_eq _ isOne',
    enter_comm names.unbanked disjoint]

end Names

/-! ## What a file changes -/

open Names (constantRegions)
open Constants (Holds)

/-- A file of constants for a region of unbanked memory names the numbers that its lines define in
the region, each by the last line that does, and changes nothing else. Two texts for one region may
be added one behind the other, the first one with its last line feed, or as one; and texts for two
regions in either order. -/
theorem constants_taken (names : Names) {region : Region} (isOne : region ∈ constantRegions)
    (text : String) :
    (∃ constants, Holds region text constants ∧
      names.Takes region constants (names.addConstants region text)) ∧
    (∀ rest,
      let first := names.addConstants region (text ++ "\n")
      let second := first.names.addConstants region rest
      let whole := names.addConstants region (text ++ "\n" ++ rest)
      second.names = whole.names ∧ first.added + second.added = whole.added) ∧
    ∀ other ∈ constantRegions, other ≠ region → ∀ text',
      let here := names.addConstants region text
      let there := names.addConstants other text'
      (here.names.addConstants other text').names = (there.names.addConstants region text).names ∧
        (here.names.addConstants other text').added = there.added ∧
        (there.names.addConstants region text).added = here.added := by
  refine ⟨⟨_, Constants.holds_iff.mpr rfl, names.takes_inRegion isOne text⟩, fun rest => ?_,
    fun other isOne' apart text' => ⟨?_, ?_, ?_⟩⟩
  · obtain ⟨sameNames, sameCount⟩ := names.addConstants_append_newline isOne text rest
    exact ⟨sameNames.symm, sameCount.symm⟩
  · exact names.addConstants_comm isOne isOne' apart text text'
  · simp only [Names.added_addConstants]
  · simp only [Names.added_addConstants]

/-- Two names for one number in high memory, the second one in other words. -/
def namedTwice : String :=
  "hFirst EQU $ff80\nDEF hLast equ 65_408 ; again"

/-- Of two constants for one number the last one stays, and they count as one name. -/
theorem constants_taken_named_twice :
    Region.hram ∈ constantRegions ∧
    ∃ constants, Holds .hram namedTwice constants ∧
      Names.empty.Takes .hram constants (Names.empty.addConstants .hram namedTwice) ∧
      constants = [("hFirst", 0xff80), ("hLast", 0xff80)] ∧
      (Names.empty.addConstants .hram namedTwice).names.at? 0xff80 0 = some "hLast" ∧
      (Names.empty.addConstants .hram namedTwice).names.ramCount = 1 := by
  have isOne : Region.hram ∈ constantRegions := by decide
  have given : Constants.inRegion .hram namedTwice = [("hFirst", 0xff80), ("hLast", 0xff80)] := by
    cbv
  obtain ⟨⟨constants, holds, takes⟩, _⟩ := constants_taken .empty isOne namedTwice
  have listed := (Constants.holds_iff.mp holds).trans given
  subst listed
  refine ⟨isOne, _, holds, takes, rfl, ?_, ?_⟩
  · rw [takes.inside 0xff80 0 rfl, Names.at?_empty]
    rfl
  · have noNames : Names.empty.ramCount = 0 := by simp [Names.ramCount, Names.empty]
    rw [takes.ramCount, noNames]
    simp

end Sm83
