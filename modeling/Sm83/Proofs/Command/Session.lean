import Mathlib
import Sm83.Proofs.Command.Looking
import Sm83.Proofs.Files.Written
import Sm83.Proofs.Names.Positions
import Sm83.Proofs.Sweep.Lockstep

/-!
# How a session ends

A session that is asked for a listing prints and writes the whole of it, or leaves all files as they
are: `all_or_nothing`. All that can fail comes before anything is printed, but for the writing of
the file itself, which comes last.
-/

namespace Sm83.Command

/-- How a session ends, given what came of the delivery. -/
def Outcome.ofResult : Except Failure Unit → Outcome
  | .ok () => .success
  | .error cause => .failure cause

/-- Readers take the arguments that ask for a listing by the options of the command, and no others,
for a request of that listing. -/
def Readers.FollowOptions (readers : Readers) : Prop :=
  ∀ texts arguments, readers.arguments texts = some (.listing arguments) ↔ Spells texts arguments

namespace Desk

variable {readers : Readers} {desk : Desk} {texts : List String} {arguments : Arguments}
  {listing : Listing}

/-- The desk after a text was printed. -/
def print (desk : Desk) (text : String) : Desk :=
  { desk with printed := desk.printed ++ text }

/-- What is printed of the text of a listing. -/
def shown (arguments : Arguments) (text : String) : String :=
  if arguments.has .quiet then "" else text ++ "\n"

/-- What comes of a file that is to be written, unless the arguments say otherwise. -/
def written (desk : Desk) (arguments : Arguments) (path : String) (content : ByteArray) :
    Except Failure Unit × Desk :=
  if arguments.has .noWrite then (.ok (), desk)
  else match desk.tree.write path content with
    | .ok tree => (.ok (), { desk with tree := tree })
    | .error fault => (.error (.unwritable path fault), desk)

/-! ## Delivering a listing -/

theorem run_lift_bind {α β : Type} (action : StateM Desk α)
    (next : α → ExceptT Failure (StateM Desk) β) :
    (liftM action >>= next).run.run desk =
      (next (action.run desk).1).run.run (action.run desk).2 :=
  rfl

theorem run_deliver (arguments : Arguments) (path text : String) :
    (deliver Desk.host arguments path text).run.run desk =
      (desk.print (shown arguments text)).written arguments path text.toUTF8 := by
  have printing (next : Unit → ExceptT Failure (StateM Desk) Unit) :
      (if !arguments.has .quiet then liftM (Desk.host.print (text ++ "\n")) >>= next
        else next ()).run.run desk = (next ()).run.run (desk.print (shown arguments text)) := by
    cases quiet : arguments.has .quiet with
    | true => simp [shown, quiet, print]
    | false =>
        simp only [shown, quiet]
        exact run_lift_bind _ next
  rw [deliver]
  refine (printing _).trans ?_
  generalize desk.print (shown arguments text) = after
  rw [written]
  cases arguments.has .noWrite with
  | true => rfl
  | false =>
      refine (run_lift_bind _ _).trans ?_
      have writing : (Desk.host.write path text.toUTF8).run after =
          after.write path text.toUTF8 := rfl
      rw [writing, Desk.write]
      cases after.tree.write path text.toUTF8 with
      | ok tree => rfl
      | error fault => rfl

theorem deliverListing_of_lists (lists : desk.Lists readers arguments listing) :
    (deliverListing readers Desk.host arguments).run.run desk =
      (desk.print (shown arguments (desk.textOf readers arguments listing))).written arguments
        (desk.outputPath readers arguments) (desk.textOf readers arguments listing).toUTF8 := by
  have read : desk.Finds (readListing Desk.host arguments (desk.settings readers arguments))
      (.ok (desk.textOf readers arguments listing)) := by
    have found : desk.Finds _ _ := finds_readListing readers arguments
    rw [listing_eq_ok_iff.mpr lists] at found
    exact found
  rw [deliverListing, (finds_readSettings readers arguments).run_bind, read.run_bind, run_deliver,
    outputPath_settings]

theorem deliverListing_of_not_lists (none : ∀ listing, ¬ desk.Lists readers arguments listing) :
    ∃ cause, desk.Finds (deliverListing readers Desk.host arguments) (.error cause) := by
  cases found : desk.listing readers arguments with
  | ok listing => exact absurd (listing_eq_ok_iff.mp found) (none listing)
  | error cause =>
      have read : desk.Finds _ _ := finds_readListing readers arguments
      rw [found] at read
      exact ⟨cause, (finds_readSettings readers arguments).bind_of_ok (read.bind_of_error _)⟩

/-! ## Sessions -/

/-- How a session that does not ask about the command itself ends, and what it leaves. -/
inductive Ends (readers : Readers) (desk : Desk) (texts : List String) : Outcome → Desk → Prop where
  /-- The arguments are not accepted. -/
  | rejected (refused : ∀ arguments, ¬Spells texts arguments) :
      Ends readers desk texts .rejected desk
  /-- Something that the listing is made from is missing or does not serve. -/
  | unlisted {arguments : Arguments} (cause : Failure)
      (asked : Spells texts arguments)
      (none : ∀ listing, ¬ desk.Lists readers arguments listing) :
      Ends readers desk texts (.failure cause) desk
  /-- Only the writing of the file failed. -/
  | unwritten {arguments : Arguments} {listing : Listing} {fault : Files.Fault}
      (asked : Spells texts arguments)
      (lists : desk.Lists readers arguments listing) (toWrite : arguments.has .noWrite = false)
      (failed : desk.tree.write (desk.outputPath readers arguments)
        (desk.textOf readers arguments listing).toUTF8 = .error fault) :
      Ends readers desk texts (.failure (.unwritable (desk.outputPath readers arguments) fault))
        (desk.print (shown arguments (desk.textOf readers arguments listing)))
  /-- No file was to be written. -/
  | printed {arguments : Arguments} {listing : Listing}
      (asked : Spells texts arguments)
      (lists : desk.Lists readers arguments listing) (notToWrite : arguments.has .noWrite = true) :
      Ends readers desk texts .success
        (desk.print (shown arguments (desk.textOf readers arguments listing)))
  /-- The file was written. -/
  | written {arguments : Arguments} {listing : Listing} {tree : Files.Tree}
      (asked : Spells texts arguments)
      (lists : desk.Lists readers arguments listing) (toWrite : arguments.has .noWrite = false)
      (wrote : desk.tree.write (desk.outputPath readers arguments)
        (desk.textOf readers arguments listing).toUTF8 = .ok tree) :
      Ends readers desk texts .success
        { desk.print (shown arguments (desk.textOf readers arguments listing)) with tree := tree }

theorem run_answerWith {result : Except Failure Unit} {after : Desk}
    (asked : readers.arguments texts = some (.listing arguments))
    (delivered : (deliverListing readers Desk.host arguments).run.run desk = (result, after)) :
    (answerWith readers Desk.host texts).run desk = (.ofResult result, after) := by
  rw [answerWith, asked]
  refine (run_bind _ _).trans ?_
  rw [delivered]
  cases result with
  | ok _ => rfl
  | error cause => rfl

theorem ends_answerWith (standard : readers.FollowOptions) (desk : Desk)
    (notVersion : readers.arguments texts ≠ some .version)
    (notHelp : readers.arguments texts ≠ some .help) :
    desk.Ends readers texts ((answerWith readers Desk.host texts).run desk).1
      ((answerWith readers Desk.host texts).run desk).2 := by
  cases asked : readers.arguments texts with
  | none =>
      have rejected : (answerWith readers Desk.host texts).run desk = (.rejected, desk) := by
        rw [answerWith, asked]
        rfl
      have refused (arguments : Arguments) : ¬Spells texts arguments := by
        rw [← standard, asked]
        exact (Option.some_ne_none _).symm
      rw [rejected]
      exact .rejected refused
  | some request =>
      cases request with
      | version => exact absurd asked notVersion
      | help => exact absurd asked notHelp
      | listing arguments =>
          have spelled := (standard texts arguments).mp asked
          by_cases possible : ∃ listing, desk.Lists readers arguments listing
          · obtain ⟨listing, lists⟩ := possible
            have delivered := deliverListing_of_lists lists
            rw [Desk.written] at delivered
            cases toWrite : arguments.has .noWrite with
            | true =>
                simp only [toWrite, if_true] at delivered
                rw [run_answerWith asked delivered]
                exact .printed spelled lists toWrite
            | false =>
                have writing :
                    (desk.print (shown arguments (desk.textOf readers arguments listing))).tree =
                      desk.tree := rfl
                simp only [toWrite, writing] at delivered
                cases wrote : desk.tree.write (desk.outputPath readers arguments)
                    (desk.textOf readers arguments listing).toUTF8 with
                | ok tree =>
                    simp only [wrote] at delivered
                    rw [run_answerWith asked delivered]
                    exact .written spelled lists toWrite wrote
                | error fault =>
                    simp only [wrote] at delivered
                    rw [run_answerWith asked delivered]
                    exact .unwritten spelled lists toWrite wrote
          · obtain ⟨cause, found⟩ := deliverListing_of_not_lists (not_exists.mp possible)
            rw [run_answerWith asked found]
            exact .unlisted cause spelled (not_exists.mp possible)

variable {outcome : Outcome} {after : Desk}

theorem Ends.of_failure (ends : desk.Ends readers texts outcome after)
    (failed : outcome.exitCode ≠ 0) :
    after.tree = desk.tree ∧
      (after.printed = desk.printed ∨
        ∃ arguments listing fault,
          Spells texts arguments ∧
          desk.Lists readers arguments listing ∧
          desk.tree.write (desk.outputPath readers arguments)
            (desk.textOf readers arguments listing).toUTF8 = .error fault ∧
          outcome = .failure (.unwritable (desk.outputPath readers arguments) fault) ∧
          after.printed =
            desk.printed ++ shown arguments (desk.textOf readers arguments listing)) := by
  cases ends with
  | rejected | unlisted => exact ⟨rfl, .inl rfl⟩
  | unwritten asked lists _ fault => exact ⟨rfl, .inr ⟨_, _, _, asked, lists, fault, rfl, rfl⟩⟩
  | printed | written => exact absurd rfl failed

theorem Ends.of_success (ends : desk.Ends readers texts outcome after)
    (succeeded : outcome.exitCode = 0) :
    ∃ arguments listing,
      Spells texts arguments ∧
      desk.Lists readers arguments listing ∧
      after.printed = desk.printed ++ shown arguments (desk.textOf readers arguments listing) ∧
      if arguments.has .noWrite then after.tree = desk.tree
      else desk.tree.Wrote (desk.outputPath readers arguments)
        (desk.textOf readers arguments listing).toUTF8 after.tree := by
  cases ends with
  | rejected | unlisted | unwritten => exact absurd succeeded (Nat.succ_ne_zero _)
  | printed asked lists notToWrite =>
      refine ⟨_, _, asked, lists, rfl, ?_⟩
      rw [if_pos notToWrite]
      rfl
  | written asked lists toWrite wrote =>
      refine ⟨_, _, asked, lists, rfl, ?_⟩
      rw [toWrite]
      exact Files.Tree.wrote_of_write wrote

theorem Ends.exitCode_eq_zero (ends : desk.Ends readers texts outcome after)
    (asked : Spells texts arguments)
    (lists : desk.Lists readers arguments listing)
    (writable : arguments.has .noWrite = true ∨
      ∃ tree, desk.tree.write (desk.outputPath readers arguments)
        (desk.textOf readers arguments listing).toUTF8 = .ok tree) : outcome.exitCode = 0 := by
  cases ends with
  | rejected refused => exact absurd asked (refused arguments)
  | unlisted _ asked' none =>
      obtain rfl := asked'.unique asked
      exact absurd lists (none listing)
  | unwritten asked' lists' toWrite failed =>
      obtain rfl := asked'.unique asked
      obtain rfl := lists'.unique lists
      rcases writable with notToWrite | ⟨tree, wrote⟩
      · rw [toWrite] at notToWrite
        cases notToWrite
      · rw [failed] at wrote
        cases wrote
  | printed | written => rfl

end Desk

open Desk (shown)

/-- A session never leaves half a result. Either all files are as they were, and nothing was printed
unless only the writing of the listing failed; or the whole listing was printed and written as was
asked for, and nothing else has changed. -/
theorem all_or_nothing {readers : Readers} (standard : readers.FollowOptions) (desk : Desk)
    {texts : List String}
    (notVersion : readers.arguments texts ≠ some .version)
    (notHelp : readers.arguments texts ≠ some .help) :
    let outcome := ((answerWith readers Desk.host texts).run desk).1
    let after := ((answerWith readers Desk.host texts).run desk).2
    (outcome.exitCode ≠ 0 →
      after.tree = desk.tree ∧
      (after.printed = desk.printed ∨
        ∃ arguments listing fault,
          Spells texts arguments ∧
          desk.Lists readers arguments listing ∧
          desk.tree.write (desk.outputPath readers arguments)
            (desk.textOf readers arguments listing).toUTF8 = .error fault ∧
          outcome = .failure (.unwritable (desk.outputPath readers arguments) fault) ∧
          after.printed =
            desk.printed ++ shown arguments (desk.textOf readers arguments listing))) ∧
    (outcome.exitCode = 0 →
      ∃ arguments listing,
        Spells texts arguments ∧
        desk.Lists readers arguments listing ∧
        after.printed = desk.printed ++ shown arguments (desk.textOf readers arguments listing) ∧
        if arguments.has .noWrite then after.tree = desk.tree
        else desk.tree.Wrote (desk.outputPath readers arguments)
          (desk.textOf readers arguments listing).toUTF8 after.tree) ∧
    (∀ arguments listing,
      Spells texts arguments →
      desk.Lists readers arguments listing →
      (arguments.has .noWrite = true ∨
        ∃ tree, desk.tree.write (desk.outputPath readers arguments)
          (desk.textOf readers arguments listing).toUTF8 = .ok tree) →
      outcome.exitCode = 0) := by
  intro outcome after
  have ends : desk.Ends readers texts outcome after :=
    Desk.ends_answerWith standard desk notVersion notHelp
  refine ⟨ends.of_failure, ends.of_success, ?_⟩
  intro arguments listing asked lists writable
  exact ends.exitCode_eq_zero asked lists writable

/-! ## Sessions in a workshop -/

/-- One jump to a hardware register. -/
def jumpImage : ByteArray := ⟨#[0xc3, 0x44, 0xff]⟩

def jumpText : String := "Func_0: ; 0 (0:0)\n\tjp rLY\n; 0x3"

theorem listed_jump {names : Names} (named : names.at? 0xff44 1 = some "rLY") :
    ∃ listing, disassemble jumpImage names 0 {} = .ok listing ∧
      listing.text { indent := "\t", showEnd := true } = jumpText := by
  let sweep : Sweep := ⟨jumpImage, names, 0, {}⟩
  let jump : Instruction := ⟨0xc3, .around "jp " "", .word 0xff44⟩
  let item : Item := .code jump (some (.name "rLY"))
  have decoded : Instruction.decode? sweep.byte? 0 = some jump := by cbv
  have known : sweep.wordName? 0xff44 = some "rLY" := named
  have size : jump.size = 3 := by decide
  have taken (labels : LabelMap) :
      sweep.take? labels 0 false = some (item, ⟨3, false, labels⟩) := by
    simp [Sweep.take?, decoded, Sweep.refer, Sweep.referWord, known, jump, item, size]
  have reached := Sweep.Reaches.pass .first (Sweep.passed?_of_take? (taken _))
  have ends : sweep.onward item
      ⟨3, false, (sweep.announce sweep.first.labels sweep.first.offset).1⟩ = .stop := by
    cbv
  have accepted : sweep.objection? = none := by cbv
  rw [ends] at reached
  refine ⟨_, reached.listing_eq accepted, ?_⟩
  cbv

def settingsText : String :=
  "rom = \"game.gb\"\noutput = \"game.asm\"\n[constants]\nhardware = [\"io.asm\"]\n"

def symbolsText : String := "00:0000 Start\n"

def registersText : String := "rLY EQU $ff44\n"

/-- A desk with settings, an image, its symbol file and a file of constants. -/
def workshop : Desk where
  tree := ⟨[(["gbdis.toml"], .file settingsText.toUTF8), (["game.gb"], .file jumpImage),
    (["game.sym"], .file symbolsText.toUTF8), (["io.asm"], .file registersText.toUTF8)]⟩

/-- Arguments that ask for a listing from the only symbol on. -/
def fromStart (output : Option String) (flags : List Flag) : Arguments where
  start := "Start"
  stop? := none
  path? option := (output.map (PathOption.output, ·)).toList.lookup option
  has flag := flags.contains flag

section

variable (output : Option String) (flags : List Flag)

theorem path?_fromStart {option : PathOption} (other : option ≠ .output) :
    (fromStart output flags).path? option = none := by
  cases output with
  | none => rfl
  | some path =>
      have differs : (option == PathOption.output) = false := beq_false_of_ne other
      simp [fromStart, List.lookup_cons, differs]

theorem path?_output_fromStart : (fromStart output flags).path? .output = output := by
  cases output with
  | none => rfl
  | some path => rfl

theorem isName_workshop {name : String}
    (known : name ∈ ["gbdis.toml", "game.gb", "game.sym", "game.asm", "io.asm", "vram.asm",
      "hram.asm"]) : Files.Tree.IsName name := by
  fin_cases known <;> constructor <;> decide

theorem noDirectory_workshop {name : String} (isName : Files.Tree.IsName name) :
    workshop.tree.node? [name] ≠ some .directory := by
  have inner : Files.Tree.isOuter [name] = false := by
    simp [Files.Tree.isOuter, isName.notOuter]
  rw [Files.Tree.node?, inner]
  intro found
  obtain ⟨_, _, nodes, _⟩ := List.lookup_eq_some_iff.mp found
  have listed : ([name], Files.Node.directory) ∈ workshop.tree.nodes := by
    rw [nodes]
    simp
  simp [workshop] at listed

theorem settings_workshop :
    workshop.settings .standard (fromStart output flags) =
      { rom := "game.gb", output := "game.asm", constants := { hardware := ["io.asm"] } } := by
  have path : workshop.settingsPath (fromStart output flags) = "gbdis.toml" := by
    rw [Desk.settingsPath, path?_fromStart output flags (by decide)]
    rfl
  have isName : Files.Tree.IsName "gbdis.toml" := isName_workshop (by simp)
  have text : workshop.textAt "gbdis.toml" = some settingsText :=
    Desk.textAt_of_read (isName.leadsTo.read_eq (by cbv))
  have parsed : Settings.parse? settingsText =
      some { rom := "game.gb", output := "game.asm", constants := { hardware := ["io.asm"] } } := by
    cbv
  rw [Desk.settings, path, text]
  exact congrArg (Option.getD · {}) parsed

theorem place_workshop {name : String} (isName : Files.Tree.IsName name) :
    workshop.place .standard (fromStart output flags) name = "./" ++ name := by
  rw [Desk.place, settings_workshop, path?_fromStart output flags (by decide)]
  simp [Files.Path.join, isName.isAbsolute_eq_false]

theorem leadsTo_place_workshop {name : String} (isName : Files.Tree.IsName name) :
    workshop.tree.LeadsTo (workshop.place .standard (fromStart output flags) name) [name] := by
  rw [place_workshop output flags isName]
  exact isName.leadsTo_here

theorem romPath_workshop :
    workshop.romPath .standard (fromStart output flags) =
      workshop.place .standard (fromStart output flags) "game.gb" := by
  rw [Desk.romPath, settings_workshop, path?_fromStart output flags (by decide)]
  rfl

theorem outputPath_workshop :
    workshop.outputPath .standard (fromStart output flags) =
      workshop.place .standard (fromStart output flags) (output.getD "game.asm") := by
  rw [Desk.outputPath, settings_workshop, path?_output_fromStart]

theorem symbolsPath?_workshop :
    workshop.symbolsPath? .standard (fromStart output flags) =
      some (workshop.place .standard (fromStart output flags) "game.sym") := by
  have isName : Files.Tree.IsName "game.sym" := isName_workshop (by simp)
  have beside : Files.Path.withExtension
      (workshop.romPath .standard (fromStart output flags)) "sym" =
        workshop.place .standard (fromStart output flags) "game.sym" := by
    rw [romPath_workshop, place_workshop output flags (isName_workshop (by simp)),
      place_workshop output flags isName]
    cbv
  have there : workshop.tree.contains
      (workshop.place .standard (fromStart output flags) "game.sym") = true :=
    (leadsTo_place_workshop output flags isName).contains_eq
  rw [Desk.symbolsPath?, path?_fromStart output flags (by decide), beside]
  exact if_pos there

theorem names_workshop :
    let names := (Names.ofEntries [⟨0, 0, "Start"⟩]).withConstants [(.hardware, registersText)]
    names.at? 0xff44 1 = some "rLY" ∧ names.offset? "Start" = some 0 := by
  have constants : Constants.inRegion .hardware registersText = [("rLY", 0xff44)] := by decide
  simp [Names.withConstants, Names.names_addConstants, constants, Names.ofEntries, Names.add,
    Names.at?, Names.entered?, Names.offset?, Region.ofAddress?, Names.empty, Bank.wrappedOffset,
    Bank.flatOffset]

theorem provides_workshop :
    workshop.Provides .standard (fromStart output flags)
      ⟨jumpImage, [⟨0, 0, "Start"⟩], some registersText, none, none, 0, none⟩ := by
  have leads (name : String) (known : _) :=
    leadsTo_place_workshop output flags (isName_workshop (known : name ∈ _))
  have lists : SymbolFile.Lists symbolsText [⟨0, 0, "Start"⟩] := by decide
  constructor
  case image =>
    rw [romPath_workshop]
    exact (leads "game.gb" (by simp)).read_eq (by cbv)
  case fits => decide
  case entries =>
    have file : workshop.tree.node? ["game.sym"] = some (.file symbolsText.toUTF8) := by cbv
    have text := Desk.textAt_of_read ((leads "game.sym" (by simp)).read_eq file)
    refine ⟨some symbolsText, ?_, lists⟩
    rw [symbolsPath?_workshop]
    exact Desk.holdsText_some_iff.mpr ⟨_, text, rfl⟩
  case hardware =>
    have file : workshop.tree.node? ["io.asm"] = some (.file registersText.toUTF8) := by cbv
    have text := Desk.textAt_of_read ((leads "io.asm" (by simp)).read_eq file)
    rw [settings_workshop]
    exact Desk.holdsFirst_of_contains (leads "io.asm" (by simp)).contains_eq text
  case vram =>
    rw [settings_workshop]
    exact Desk.holdsFirst_of_missing (leads "vram.asm" (by simp)).contains_eq
  case hram =>
    rw [settings_workshop]
    exact Desk.holdsFirst_of_missing (leads "hram.asm" (by simp)).contains_eq
  case start =>
    have isWord := Position.word_of_lists lists List.mem_cons_self
    have noColon : ':' ∉ "Start".toList := by decide
    exact Position.resolve_name (by decide) isWord.1 isWord.2 noColon names_workshop.2
  case stop => rfl

theorem lists_workshop (hardStop : .hardStop ∉ flags) (data : .data ∉ flags) :
    ∃ listing, workshop.Lists .standard (fromStart output flags) listing ∧
      workshop.textOf .standard (fromStart output flags) listing = jumpText := by
  obtain ⟨listing, swept, text⟩ := listed_jump names_workshop.1
  have noHardStop : (fromStart output flags).has .hardStop = false := by
    simpa [fromStart] using hardStop
  have noData : (fromStart output flags).has .data = false := by
    simpa [fromStart] using data
  refine ⟨listing, ⟨_, provides_workshop output flags, ?_⟩, ?_⟩
  · rw [noHardStop, noData]
    exact swept
  · rw [Desk.textOf, settings_workshop]
    exact text

end

theorem spells_flag {text : String} {flag : Flag} (name : String) (long : text = "--" ++ name)
    (known : longOptions.lookup name = some (.flag flag)) :
    Spells ["Start", text] (fromStart none [flag]) := by
  obtain rfl := long
  have start : ¬IsOption "Start" := mt isOption_iff.mpr (by decide)
  refine ⟨_, .position start (.option (.flag known) .nil), ⟨by simp, ?_, ?_⟩, rfl, ?_, ?_⟩
  · simp [List.filterMap_cons, Word.path?]
  · simp [List.filterMap_cons, Word.flag?]
  · simp [fromStart]
  · simp [fromStart]

theorem spells_output {path : String} (notOption : ¬IsOption path) (notEmpty : path ≠ "") :
    Spells ["Start", "-o", path] (fromStart (some path) []) := by
  have start : ¬IsOption "Start" := mt isOption_iff.mpr (by decide)
  have waits : OptionSpells "-o" [] (some .output) :=
    .letters (List.cons_ne_nil 'o' []) (.path rfl .nothing)
  refine ⟨_, .position start (.path waits notOption .nil), ⟨by simp [notEmpty.symm], ?_, ?_⟩, rfl,
    ?_, ?_⟩
  · simp [List.filterMap_cons, Word.path?]
  · simp [List.filterMap_cons, Word.flag?]
  · intro option place
    cases option with
    | output => simp [fromStart, eq_comm]
    | rom | symbols | base | settings =>
        rw [path?_fromStart _ _ (by decide)]
        simp
  · simp [fromStart]

/-- A session under settings with symbols and constants is printed alone, written alone, or written
over the image. -/
theorem all_or_nothing_in_workshop :
    let session (texts : List String) := (answerWith .standard Desk.host texts).run workshop
    Readers.standard.FollowOptions ∧
    (∀ texts ∈ [["Start", "--quiet"], ["Start", "--no-write"], ["Start", "-o", "game.gb"]],
      Request.ofArguments? texts ≠ some .version ∧ Request.ofArguments? texts ≠ some .help ∧
      (session texts).1.exitCode = 0) ∧
    (session ["Start", "--quiet"]).2.printed = "" ∧
    (session ["Start", "--quiet"]).2.tree.read "./game.asm" = .ok jumpText.toUTF8 ∧
    (session ["Start", "--no-write"]).2.printed = jumpText ++ "\n" ∧
    (session ["Start", "--no-write"]).2.tree = workshop.tree ∧
    (session ["Start", "-o", "game.gb"]).2.printed = jumpText ++ "\n" ∧
    (session ["Start", "-o", "game.gb"]).2.tree.read "./game.gb" = .ok jumpText.toUTF8 := by
  intro session
  have standard : Readers.standard.FollowOptions := fun _ _ => ofArguments?_eq_listing_iff
  have ends (texts : List String) (output : Option String) (flags : List Flag)
      (hardStop : .hardStop ∉ flags) (data : .data ∉ flags)
      (isName : Files.Tree.IsName (output.getD "game.asm"))
      (spelled : Spells texts (fromStart output flags)) :
      (Request.ofArguments? texts ≠ some .version ∧ Request.ofArguments? texts ≠ some .help ∧
        (session texts).1.exitCode = 0) ∧
      (session texts).2.printed = shown (fromStart output flags) jumpText ∧
      if (fromStart output flags).has .noWrite then (session texts).2.tree = workshop.tree
      else workshop.tree.Wrote (workshop.outputPath .standard (fromStart output flags))
        jumpText.toUTF8 (session texts).2.tree := by
    have asked := ofArguments?_eq_listing_iff.mpr spelled
    have notVersion : Request.ofArguments? texts ≠ some .version := by simp [asked]
    have notHelp : Request.ofArguments? texts ≠ some .help := by simp [asked]
    obtain ⟨listing, lists, text⟩ := lists_workshop output flags hardStop data
    obtain ⟨_, delivered, succeeds⟩ := all_or_nothing standard workshop notVersion notHelp
    have writable : ∃ tree, workshop.tree.write
        (workshop.outputPath .standard (fromStart output flags))
        (workshop.textOf .standard (fromStart output flags) listing).toUTF8 = .ok tree := by
      rw [outputPath_workshop, place_workshop output flags isName]
      exact ⟨_, isName.write_here (noDirectory_workshop isName)⟩
    have zero : (session texts).1.exitCode = 0 := succeeds _ _ spelled lists (.inr writable)
    obtain ⟨arguments, listing', spelled', lists', printed, wrote⟩ := delivered zero
    obtain rfl := spelled.unique spelled'
    obtain rfl := lists.unique lists'
    rw [text] at printed wrote
    exact ⟨⟨notVersion, notHelp, zero⟩, printed, wrote⟩
  have usual (flags : List Flag) :
      workshop.outputPath .standard (fromStart none flags) = "./game.asm" :=
    (outputPath_workshop none flags).trans (place_workshop none flags (isName_workshop (by simp)))
  have image (flags : List Flag) :
      workshop.outputPath .standard (fromStart (some "game.gb") flags) = "./game.gb" :=
    (outputPath_workshop _ flags).trans (place_workshop _ flags (isName_workshop (by simp)))
  have quiet := ends ["Start", "--quiet"] none [.quiet] (by decide) (by decide)
    (isName_workshop (by simp)) (spells_flag "quiet" (by decide) (by decide))
  have noWrite := ends ["Start", "--no-write"] none [.noWrite] (by decide) (by decide)
    (isName_workshop (by simp)) (spells_flag "no-write" (by decide) (by decide))
  have replacing := ends ["Start", "-o", "game.gb"] (some "game.gb") [] (by decide) (by decide)
    (isName_workshop (by simp))
    (spells_output (mt isOption_iff.mpr (by decide)) (by decide))
  rw [usual] at quiet noWrite
  rw [image] at replacing
  refine ⟨standard, ?_, quiet.2.1, quiet.2.2.read, noWrite.2.1, noWrite.2.2, replacing.2.1,
    replacing.2.2.read⟩
  intro texts known
  simp only [List.mem_cons, List.not_mem_nil, or_false] at known
  rcases known with rfl | rfl | rfl
  · exact quiet.1
  · exact noWrite.1
  · exact replacing.1

end Sm83.Command
