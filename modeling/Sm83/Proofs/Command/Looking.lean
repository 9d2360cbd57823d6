import Sm83.Proofs.Command.Sources

/-!
# Looking for what a listing is made from

Everything that the command does before it prints anything only looks at the files of a desk. It
finds what they hold, or the reason why they do not serve, and leaves the desk as it is.
-/

namespace Sm83

theorem Names.withConstants_append (names : Names) (files files' : List (Region × String)) :
    names.withConstants (files ++ files') = (names.withConstants files).withConstants files' :=
  List.foldl_append

namespace Command

namespace Desk

variable (readers : Readers) (desk : Desk) (arguments : Arguments)

/-! ## Actions that only look -/

variable {α β : Type}

/-- An action brings a value on a desk and leaves the desk as it is. -/
def Shows (action : StateM Desk α) (value : α) : Prop :=
  action.run desk = (value, desk)

/-- An action that can fail ends in one way on a desk and leaves the desk as it is. -/
def Finds (action : ExceptT Failure (StateM Desk) α) (result : Except Failure α) : Prop :=
  desk.Shows action.run result

variable {desk}

theorem run_bind (action : StateM Desk α) (next : α → StateM Desk β) :
    (action >>= next).run desk = (next (action.run desk).1).run (action.run desk).2 :=
  rfl

theorem Shows.run_bind {action : StateM Desk α} {value : α} (first : desk.Shows action value)
    (next : α → StateM Desk β) : (action >>= next).run desk = (next value).run desk := by
  rw [Desk.run_bind, first]

theorem Shows.bind {action : StateM Desk α} {value : α} {next : α → StateM Desk β} {value' : β}
    (first : desk.Shows action value) (rest : desk.Shows (next value) value') :
    desk.Shows (action >>= next) value' :=
  (first.run_bind next).trans rest

theorem shows_pure (value : α) : desk.Shows (pure value) value :=
  rfl

theorem finds_pure (value : α) : desk.Finds (pure value) (.ok value) :=
  rfl

theorem finds_throw (cause : Failure) : desk.Finds (throw cause : ExceptT _ _ α) (.error cause) :=
  rfl

theorem Finds.run_bind {action : ExceptT Failure (StateM Desk) α} {value : α}
    (first : desk.Finds action (.ok value)) (next : α → ExceptT Failure (StateM Desk) β) :
    (action >>= next).run.run desk = (next value).run.run desk := by
  rw [ExceptT.run_bind]
  exact Shows.run_bind first _

theorem Finds.bind_of_ok {action : ExceptT Failure (StateM Desk) α} {value : α}
    {next : α → ExceptT Failure (StateM Desk) β} {result : Except Failure β}
    (first : desk.Finds action (.ok value)) (rest : desk.Finds (next value) result) :
    desk.Finds (action >>= next) result :=
  (first.run_bind next).trans rest

theorem Finds.bind_of_error {action : ExceptT Failure (StateM Desk) α} {cause : Failure}
    (first : desk.Finds action (.error cause)) (next : α → ExceptT Failure (StateM Desk) β) :
    desk.Finds (action >>= next) (.error cause) := by
  rw [Finds, ExceptT.run_bind]
  exact Shows.bind first (shows_pure _)

theorem Finds.bind {action : ExceptT Failure (StateM Desk) α} {result : Except Failure α}
    {next : α → ExceptT Failure (StateM Desk) β} {result' : α → Except Failure β}
    (first : desk.Finds action result) (rest : ∀ value, desk.Finds (next value) (result' value)) :
    desk.Finds (action >>= next) (result >>= result') := by
  cases result with
  | error cause => exact first.bind_of_error next
  | ok value => exact first.bind_of_ok (rest value)

/-! Reading a file, asking for one and asking for a variable only look. -/

theorem shows_read (path : String) : desk.Shows (Desk.host.read path) (desk.tree.read path) :=
  rfl

theorem shows_contains (path : String) :
    desk.Shows (Desk.host.contains path) (desk.tree.contains path) :=
  rfl

theorem shows_environment (name : String) :
    desk.Shows (Desk.host.environment name) (desk.environment.lookup name) :=
  rfl

theorem Shows.lift {action : StateM Desk α} {value : α} (first : desk.Shows action value) :
    desk.Finds (liftM action) (.ok value) := by
  have run : (liftM action : ExceptT Failure (StateM Desk) α).run = Except.ok <$> action := rfl
  rw [Finds, run, map_eq_pure_bind]
  exact Shows.bind first (shows_pure _)

/-! ## What the command finds -/

theorem ofFileWith_eq (read : String → Option Settings) (path : String) :
    (Settings.ofFileWith read (desk.tree.read path)).1 =
      ((desk.textAt path).bind read).getD {} := by
  rw [Settings.ofFileWith, textAt]
  cases desk.tree.read path with
  | error fault => rfl
  | ok content =>
      simp only [Except.bind, Except.toOption, Files.text?, Option.bind_some]
      cases String.fromUTF8? content with
      | none => rfl
      | some text =>
          simp only [Option.bind_some]
          cases read text <;> rfl

theorem join_baseOf :
    Files.Path.join (baseOf arguments (desk.settings readers arguments)) =
      desk.place readers arguments := by
  funext path
  rw [baseOf, Option.orElse_eq_orElse, Option.orElse_eq_or]
  rfl

theorem romPath_settings :
    Command.romPath arguments (desk.settings readers arguments) =
      desk.romPath readers arguments := by
  rw [Command.romPath, join_baseOf, romPath]

theorem outputPath_settings :
    Command.outputPath arguments (desk.settings readers arguments) =
      desk.outputPath readers arguments := by
  rw [Command.outputPath, join_baseOf, outputPath]

theorem finds_readCartridge (path : String) :
    desk.Finds (readCartridge Desk.host path)
      ((Cartridge.ofFile path (desk.tree.read path)).mapError .cartridge) := by
  apply Finds.bind_of_ok (shows_read _).lift
  cases Cartridge.ofFile path (desk.tree.read path) with
  | ok cartridge => exact finds_pure cartridge
  | error error => exact finds_throw _

theorem finds_readSymbols (path : String) :
    desk.Finds (readSymbols Desk.host path)
      ((Names.ofSymbolFile path (desk.tree.read path)).mapError .symbols) := by
  apply Finds.bind_of_ok (shows_read _).lift
  cases Names.ofSymbolFile path (desk.tree.read path) with
  | ok names => exact finds_pure names
  | error error => exact finds_throw _

theorem finds_readNames :
    desk.Finds (readNames Desk.host arguments (desk.settings readers arguments))
      (desk.symbols readers arguments) := by
  rw [readNames, romPath_settings, join_baseOf, symbols, symbolsPath?]
  cases arguments.path? .symbols with
  | some path => exact finds_readSymbols (desk.place readers arguments path)
  | none =>
      apply Finds.bind_of_ok (shows_contains _).lift
      generalize Files.Path.withExtension (desk.romPath readers arguments) "sym" = path
      by_cases there : desk.tree.contains path
      · simp only [there, if_true]
        exact finds_readSymbols path
      · simp only [there]
        exact finds_pure Names.empty

theorem finds_addConstants? (names : Names) (path : String) (region : Region) :
    desk.Finds (addConstants? Desk.host names path region)
      (if desk.tree.contains path then
        (fun text => some (names.addConstants region text)) <$> desk.constantsText path
      else .ok none) := by
  rw [addConstants?]
  apply Finds.bind_of_ok (shows_contains _).lift
  by_cases there : desk.tree.contains path
  · simp only [there, if_true]
    apply Finds.bind_of_ok (shows_read _).lift
    rw [Names.addConstantsFile, constantsText]
    cases (desk.tree.read path).bind Files.text? with
    | ok text => exact finds_pure (some (names.addConstants region text))
    | error fault => exact finds_throw _
  · simp only [there]
    exact finds_pure none

theorem finds_addFirstConstants (names : Names) (region : Region) (paths : List String) :
    desk.Finds (addFirstConstants Desk.host names region paths)
      (names.withConstants <$> desk.constants region paths) := by
  induction paths with
  | nil => exact finds_pure names
  | cons path rest ih =>
      have first : desk.Finds _ _ := finds_addConstants? names path region
      rw [addFirstConstants, constants, List.find?_cons]
      by_cases there : desk.tree.contains path
      · simp only [there, if_true] at first ⊢
        cases read : desk.constantsText path with
        | error cause =>
            rw [read] at first
            exact first.bind_of_error _
        | ok text =>
            rw [read] at first
            exact first.bind_of_ok (finds_pure _)
      · simp only [there] at first ⊢
        exact first.bind_of_ok ih

theorem finds_readAllNames :
    desk.Finds (readAllNames Desk.host arguments (desk.settings readers arguments))
      (desk.names readers arguments) := by
  have one_by_one (names : Names) (hardware vram hram : Except Failure (List (Region × String))) :
      (do return names.withConstants ((← hardware) ++ (← vram) ++ (← hram))) =
        (do
          let names ← names.withConstants <$> hardware
          let names ← names.withConstants <$> vram
          names.withConstants <$> hram) := by
    simp only [map_eq_pure_bind, bind_assoc, pure_bind, Names.withConstants_append]
  rw [readAllNames, join_baseOf, names]
  apply Finds.bind (finds_readNames readers arguments)
  intro names
  rw [one_by_one]
  apply Finds.bind (finds_addFirstConstants names .hardware _)
  intro names
  apply Finds.bind (finds_addFirstConstants names .vram _)
  intro names
  exact finds_addFirstConstants names .hram _

theorem finds_readListing :
    desk.Finds (readListing Desk.host arguments (desk.settings readers arguments))
      (desk.textOf readers arguments <$> desk.listing readers arguments) := by
  rw [readListing, romPath_settings, listing, map_bind]
  apply Finds.bind (finds_readCartridge _)
  intro cartridge
  rw [map_bind]
  apply Finds.bind (finds_readAllNames readers arguments)
  intro names
  cases listingOf arguments cartridge names with
  | ok listing => exact finds_pure _
  | error cause => exact finds_throw cause

theorem shows_settingsPath :
    desk.Shows (Command.settingsPath Desk.host) desk.usualSettingsPath := by
  rw [Command.settingsPath, usualSettingsPath]
  apply Shows.bind (shows_environment "XDG_CONFIG_HOME")
  cases desk.environment.lookup "XDG_CONFIG_HOME" with
  | some directory => rfl
  | none =>
      apply Shows.bind (shows_environment "HOME")
      cases desk.environment.lookup "HOME" with
      | some directory => rfl
      | none => rfl

theorem shows_readSettings :
    desk.Shows (readSettings readers Desk.host arguments) (desk.settings readers arguments) := by
  rw [readSettings, settings, settingsPath]
  simp only [← ofFileWith_eq]
  cases arguments.path? .settings with
  | some path => exact Shows.bind (shows_pure path) (Shows.bind (shows_read path) (shows_pure _))
  | none =>
      apply Shows.bind shows_settingsPath
      exact Shows.bind (shows_read desk.usualSettingsPath) (shows_pure _)

theorem finds_readSettings :
    desk.Finds (ExceptT.lift (readSettings readers Desk.host arguments))
      (.ok (desk.settings readers arguments)) :=
  (shows_readSettings readers arguments).lift

end Desk

end Command

end Sm83
