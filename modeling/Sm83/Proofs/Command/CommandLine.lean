import Sm83.Proofs.Command.Words
import Sm83.Proofs.Text.Fields

/-!
# Reading command lines

The reader of command lines gathers the words of a command line, and nothing else, so it asks for a
listing exactly if the command line does: `ofArguments?_eq_listing_iff`.
-/

namespace Sm83.Command

open Gathered

variable {gathered gathered' : Gathered} {waiting : Option PathOption} {words : List Word}

/-! ## Reading options -/

theorem addAttached_path {option : PathOption} {c : Char} {path : List Char} (plain : c ≠ '=') :
    gathered.addAttached option (c :: path) =
      (gathered.addPath option (String.ofList (c :: path))).map (·, none) := by
  unfold addAttached
  split
  · next impossible => cases impossible
  · next same => exact absurd (List.cons.inj same).1 plain
  · rfl

theorem addAttached_eq_ok_iff {option : PathOption} {rest : List Char} :
    gathered.addAttached option rest = .ok (gathered', waiting) ↔
      ∃ words, Attached option rest words waiting ∧ gathered.Adds words gathered' := by
  constructor
  · intro read
    cases rest with
    | nil =>
        cases read
        exact ⟨[], .nothing, adds_nil.mpr rfl⟩
    | cons c path =>
        by_cases plain : c = '='
        · subst plain
          obtain ⟨_, added, ⟨⟩⟩ := Except.map_eq_ok_iff.mp read
          exact ⟨_, .equals path, adds_singleton.mpr added⟩
        · rw [addAttached_path plain] at read
          obtain ⟨_, added, ⟨⟩⟩ := Except.map_eq_ok_iff.mp read
          exact ⟨_, .path plain, adds_singleton.mpr added⟩
  · rintro ⟨words, attached, adds⟩
    cases attached with
    | nothing =>
        obtain rfl := adds_nil.mp adds
        rfl
    | equals path => exact Except.map_eq_ok_iff.mpr ⟨_, adds_singleton.mp adds, rfl⟩
    | path plain =>
        rw [addAttached_path plain]
        exact Except.map_eq_ok_iff.mpr ⟨_, adds_singleton.mp adds, rfl⟩

theorem Cluster.execution {letters : List Char} (cluster : Cluster letters words waiting)
    (adds : gathered.Adds words gathered') :
    gathered.addLetters letters = .ok (gathered', waiting) := by
  induction cluster generalizing gathered with
  | nil =>
      obtain rfl := adds_nil.mp adds
      rfl
  | flag known _ ih =>
      obtain ⟨next, added, rest⟩ := adds_cons.mp adds
      simp only [addLetters, known]
      exact Except.bind_eq_ok_iff.mpr ⟨next, added, ih rest⟩
  | path known attached =>
      simp only [addLetters, known]
      exact addAttached_eq_ok_iff.mpr ⟨_, attached, adds⟩

theorem cluster_of_addLetters {letters : List Char}
    (read : gathered.addLetters letters = .ok (gathered', waiting)) :
    ∃ words, Cluster letters words waiting ∧ gathered.Adds words gathered' := by
  induction letters generalizing gathered with
  | nil =>
      cases read
      exact ⟨[], .nil, adds_nil.mpr rfl⟩
  | cons letter rest ih =>
      rw [addLetters] at read
      cases known : shortOptions.lookup letter with
      | none =>
          rw [known] at read
          cases read
      | some meaning =>
          rw [known] at read
          cases meaning with
          | path option =>
              obtain ⟨words, attached, adds⟩ := addAttached_eq_ok_iff.mp read
              exact ⟨words, .path known attached, adds⟩
          | flag flag =>
              obtain ⟨next, added, read⟩ := Except.bind_eq_ok_iff.mp read
              obtain ⟨words, cluster, adds⟩ := ih read
              exact ⟨_, .flag known cluster, adds_cons.mpr ⟨next, added, adds⟩⟩
          | version | help => cases read

theorem notMem_of_longOptions {name : String} {meaning : Meaning}
    (known : longOptions.lookup name = some meaning) : '=' ∉ name.toList := by
  have table : ∀ entry ∈ longOptions, '=' ∉ entry.1.toList := by decide
  obtain ⟨before, behind, listed, _⟩ := List.lookup_eq_some_iff.mp known
  exact table (name, meaning) (by simp [listed])

theorem addOption_long (name : String) :
    gathered.addOption ("--" ++ name) = gathered.addLong name.toList := by
  simp [addOption, String.toList_append]

theorem addOption_letters {c : Char} {letters : List Char} (single : c ≠ '-') :
    gathered.addOption ("-" ++ String.ofList (c :: letters)) =
      gathered.addLetters (c :: letters) := by
  simp [addOption, String.toList_append, single]

theorem Cluster.single {c : Char} {letters : List Char}
    (cluster : Cluster (c :: letters) words waiting) : c ≠ '-' := by
  rintro rfl
  have unknown : shortOptions.lookup '-' = none := by decide
  cases cluster with
  | flag known | path known =>
      rw [unknown] at known
      cases known

theorem OptionSpells.execution {text : String} (spells : OptionSpells text words waiting)
    (adds : gathered.Adds words gathered') :
    gathered.addOption text = .ok (gathered', waiting) := by
  cases spells with
  | @flag name flag known =>
      rw [addOption_long, addLong, Text.cut?_eq_none_iff.mpr (notMem_of_longOptions known)]
      simp only [String.ofList_toList, known]
      exact Except.map_eq_ok_iff.mpr ⟨_, adds_singleton.mp adds, rfl⟩
  | @waiting name option known =>
      obtain rfl := adds_nil.mp adds
      rw [addOption_long, addLong, Text.cut?_eq_none_iff.mpr (notMem_of_longOptions known)]
      simp only [String.ofList_toList, known]
  | @equals name path option known =>
      have shape : ("--" ++ name ++ "=" ++ path) = "--" ++ (name ++ "=" ++ path) := by
        simp [String.append_assoc]
      have cut : Text.cut? '=' (name ++ "=" ++ path).toList = some (name.toList, path.toList) := by
        have clear := notMem_of_longOptions known
        simpa [String.toList_append] using Text.cut?_append_mark clear path.toList
      rw [shape, addOption_long, addLong, cut]
      simp only [String.ofList_toList, known]
      exact Except.map_eq_ok_iff.mpr ⟨_, adds_singleton.mp adds, rfl⟩
  | @letters letters _ _ some cluster =>
      obtain ⟨c, rest, rfl⟩ := List.exists_cons_of_ne_nil some
      rw [addOption_letters cluster.single]
      exact cluster.execution adds

theorem optionSpells_of_addLong {name : List Char}
    (read : gathered.addLong name = .ok (gathered', waiting)) :
    ∃ words, OptionSpells ("--" ++ String.ofList name) words waiting ∧
      gathered.Adds words gathered' := by
  rw [addLong] at read
  cases cut : Text.cut? '=' name with
  | none =>
      rw [cut] at read
      cases known : longOptions.lookup (String.ofList name) with
      | none =>
          simp only [known] at read
          cases read
      | some meaning =>
          simp only [known] at read
          cases meaning with
          | path option =>
              cases read
              exact ⟨[], .waiting known, adds_nil.mpr rfl⟩
          | flag flag =>
              obtain ⟨_, added, ⟨⟩⟩ := Except.map_eq_ok_iff.mp read
              exact ⟨_, .flag known, adds_singleton.mpr added⟩
          | version | help => cases read
  | some parts =>
      obtain ⟨front, path⟩ := parts
      obtain ⟨rfl, _⟩ := Text.cut?_eq_some_iff.mp cut
      rw [cut] at read
      cases known : longOptions.lookup (String.ofList front) with
      | none =>
          simp only [known] at read
          cases read
      | some meaning =>
          simp only [known] at read
          cases meaning with
          | path option =>
              obtain ⟨_, added, ⟨⟩⟩ := Except.map_eq_ok_iff.mp read
              have spells : OptionSpells ("--" ++ String.ofList front ++ "=" ++ String.ofList path)
                _ _ := .equals known
              refine ⟨[.path option (String.ofList path)], ?_, adds_singleton.mpr added⟩
              convert spells using 1
              simp [← String.toList_inj]
          | flag | version | help => cases read

theorem optionSpells_of_addOption {text : String}
    (read : gathered.addOption text = .ok (gathered', waiting)) (isOption : IsOption text) :
    ∃ words, OptionSpells text words waiting ∧ gathered.Adds words gathered' := by
  obtain ⟨c, rest, shape⟩ := isOption
  by_cases long : c = '-'
  · subst long
    have shape : text = "--" ++ String.ofList rest := by simp [← String.toList_inj, shape]
    rw [shape] at read ⊢
    rw [addOption_long, String.toList_ofList] at read
    exact optionSpells_of_addLong read
  · have shape : text = "-" ++ String.ofList (c :: rest) := by
      simp [← String.toList_inj, shape]
    rw [shape] at read ⊢
    rw [addOption_letters long] at read
    obtain ⟨words, cluster, adds⟩ := cluster_of_addLetters read
    exact ⟨words, .letters (List.cons_ne_nil _ _) cluster, adds⟩

/-! ## Reading command lines -/

theorem isOption_iff {text : String} : Gathered.isOption text = true ↔ IsOption text := by
  have single : text = "-" ↔ text.toList = ['-'] := by
    rw [← String.toList_inj]
    rfl
  rw [Gathered.isOption, IsOption, Bool.and_eq_true, bne_iff_ne, ne_eq, single]
  cases text.toList with
  | nil => simp
  | cons c rest => cases rest <;> simp

theorem OptionSpells.isOption {text : String} (spells : OptionSpells text words waiting) :
    IsOption text ∧ text ≠ "--" := by
  have named {name : String} {meaning : Meaning} (known : longOptions.lookup name = some meaning)
      (behind : String) :
      IsOption ("--" ++ (name ++ behind)) ∧ "--" ++ (name ++ behind) ≠ "--" := by
    have notEmpty : name.toList ≠ [] := by
      intro empty
      rw [String.toList_eq_nil_iff.mp empty] at known
      cases known
    constructor
    · exact ⟨'-', (name ++ behind).toList, by simp [String.toList_append]⟩
    · intro same
      have chars := congrArg String.toList same
      simp only [String.toList_append] at chars
      exact notEmpty (List.append_eq_nil_iff.mp (List.append_right_eq_self.mp chars)).1
  cases spells with
  | flag known | waiting known => simpa using named known ""
  | @equals name path option known =>
      simpa [String.append_assoc] using named known ("=" ++ path)
  | @letters letters _ _ some cluster =>
      obtain ⟨c, rest, rfl⟩ := List.exists_cons_of_ne_nil some
      refine ⟨⟨c, rest, by simp [String.toList_append]⟩, ?_⟩
      simp [← String.toList_inj, String.toList_append, cluster.single]

theorem CommandLine.execution {texts : List String} (line : CommandLine texts words)
    (adds : gathered.Adds words gathered') : gathered.addAll texts = .ok gathered' := by
  induction line generalizing gathered with
  | nil =>
      obtain rfl := adds_nil.mp adds
      rfl
  | positions texts =>
      rw [Adds, List.foldlM_map] at adds
      rw [addAll.eq_def]
      exact adds
  | @position text texts words plain _ ih =>
      have notEnd : text ≠ "--" := by
        rintro rfl
        exact plain ⟨'-', [], rfl⟩
      obtain ⟨next, added, rest⟩ := adds_cons.mp adds
      rw [addAll.eq_def]
      simp only [notEnd, mt isOption_iff.mp plain]
      exact Except.bind_eq_ok_iff.mpr ⟨next, added, ih rest⟩
  | option spells _ ih =>
      obtain ⟨isOption, notEnd⟩ := spells.isOption
      obtain ⟨next, here, rest⟩ := adds_append.mp adds
      rw [addAll.eq_def]
      simp only [notEnd, isOption_iff.mpr isOption, spells.execution here]
      exact ih rest
  | path spells plain _ ih =>
      obtain ⟨isOption, notEnd⟩ := spells.isOption
      obtain ⟨next, here, rest⟩ := adds_append.mp adds
      obtain ⟨next', added, rest⟩ := adds_cons.mp rest
      rw [addAll.eq_def]
      simp only [notEnd, isOption_iff.mpr isOption, spells.execution here, mt isOption_iff.mp plain]
      exact Except.bind_eq_ok_iff.mpr ⟨next', added, ih rest⟩

theorem commandLine_of_addAll {texts : List String} (read : gathered.addAll texts = .ok gathered') :
    ∃ words, CommandLine texts words ∧ gathered.Adds words gathered' := by
  fun_induction addAll gathered texts with
  | case1 gathered =>
      cases read
      exact ⟨[], .nil, adds_nil.mpr rfl⟩
  | case2 gathered rest =>
      refine ⟨_, .positions rest, ?_⟩
      rw [Adds, List.foldlM_map]
      exact read
  | case3 | case5 | case6 => cases read
  | case4 gathered text _ isOption next rest here ih =>
      obtain ⟨words, spells, first⟩ := optionSpells_of_addOption here (isOption_iff.mp isOption)
      obtain ⟨_, line, adds⟩ := ih read
      exact ⟨_, .option spells line, adds_append.mpr ⟨next, first, adds⟩⟩
  | case7 gathered text _ isOption next option path rest here plain ih =>
      obtain ⟨words, spells, first⟩ := optionSpells_of_addOption here (isOption_iff.mp isOption)
      obtain ⟨next', added, read⟩ := Except.bind_eq_ok_iff.mp read
      obtain ⟨_, line, adds⟩ := ih next' read
      exact ⟨_, .path spells (mt isOption_iff.mpr plain) line,
        adds_append.mpr ⟨next, first, adds_cons.mpr ⟨next', added, adds⟩⟩⟩
  | case8 gathered text rest _ plain ih =>
      obtain ⟨next, added, read⟩ := Except.bind_eq_ok_iff.mp read
      obtain ⟨_, line, adds⟩ := ih next read
      exact ⟨_, .position (mt isOption_iff.mpr plain) line, adds_cons.mpr ⟨next, added, adds⟩⟩

theorem addAll_eq_ok_iff {texts : List String} :
    gathered.addAll texts = .ok gathered' ↔
      ∃ words, CommandLine texts words ∧ gathered.Adds words gathered' := by
  refine ⟨commandLine_of_addAll, ?_⟩
  rintro ⟨words, line, adds⟩
  exact line.execution adds

theorem ofArguments?_eq_listing_iff {texts : List String} {arguments : Arguments} :
    Request.ofArguments? texts = some (.listing arguments) ↔ Spells texts arguments := by
  rw [Request.ofArguments?]
  constructor
  · intro asked
    cases read : addAll {} texts with
    | error halt =>
        rw [read] at asked
        cases halt <;> cases asked
    | ok gathered =>
        rw [read] at asked
        obtain ⟨_, found, ⟨⟩⟩ := Option.map_eq_some_iff.mp asked
        obtain ⟨words, line, adds⟩ := addAll_eq_ok_iff.mp read
        obtain ⟨accepted, few, rfl⟩ := adds_empty_iff.mp adds
        exact ⟨words, line, accepted, (arguments?_gather_eq_some_iff accepted few).mp found⟩
  · rintro ⟨words, line, accepted, asks⟩
    have few : (words.filterMap Word.position?).length ≤ 2 := by
      rw [asks.positions]
      cases arguments.stop? <;> simp
    have read := line.execution (adds_empty_iff.mpr ⟨accepted, few, rfl⟩)
    rw [read]
    exact Option.map_eq_some_iff.mpr
      ⟨_, (arguments?_gather_eq_some_iff accepted few).mpr asks, rfl⟩

theorem Spells.unique {texts : List String} {arguments arguments' : Arguments}
    (spells : Spells texts arguments) (spells' : Spells texts arguments') :
    arguments' = arguments := by
  rw [← ofArguments?_eq_listing_iff] at spells spells'
  have same := spells'.symm.trans spells
  cases same
  rfl

end Sm83.Command
