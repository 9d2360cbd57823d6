import Mathlib
import Sm83.Command.CommandLine

/-!
# Words of a command line

A command line says words: positions, paths of options, and flags. Which words it says follows from
the names and the letters of the options alone, and words that are accepted ask for one listing.
-/

namespace Sm83.Command

/-! ## Words -/

/-- One thing that a command line says. -/
inductive Word where
  | position (text : String)
  | path (option : PathOption) (path : String)
  | flag (flag : Flag)
  deriving DecidableEq

namespace Word

def position? : Word → Option String
  | .position text => some text
  | .path _ _ | .flag _ => none

def path? : Word → Option (PathOption × String)
  | .path option place => some (option, place)
  | .position _ | .flag _ => none

def flag? : Word → Option Flag
  | .flag given => some given
  | .position _ | .path _ _ => none

end Word

/-- An argument that is read for options: a dash with more behind it. -/
def IsOption (text : String) : Prop :=
  ∃ c rest, text.toList = '-' :: c :: rest

/-- What stands behind the letter of an option says, and whether the option still waits for its
path. -/
inductive Attached (option : PathOption) : List Char → List Word → Option PathOption → Prop where
  | nothing : Attached option [] [] (some option)
  | equals (path : List Char) :
      Attached option ('=' :: path) [.path option (String.ofList path)] none
  | path {c : Char} {path : List Char} (plain : c ≠ '=') :
      Attached option (c :: path) [.path option (String.ofList (c :: path))] none

/-- What letters behind a single dash say, and the option that still waits for its path. -/
inductive Cluster : List Char → List Word → Option PathOption → Prop where
  | nil : Cluster [] [] none
  | flag {letter : Char} {flag : Flag} {letters : List Char} {words : List Word}
      {waiting : Option PathOption} (known : shortOptions.lookup letter = some (.flag flag))
      (rest : Cluster letters words waiting) :
      Cluster (letter :: letters) (.flag flag :: words) waiting
  | path {letter : Char} {option : PathOption} {rest : List Char} {words : List Word}
      {waiting : Option PathOption} (known : shortOptions.lookup letter = some (.path option))
      (attached : Attached option rest words waiting) : Cluster (letter :: rest) words waiting

/-- What an argument that is read for options says, and the option that still waits for its path. -/
inductive OptionSpells : String → List Word → Option PathOption → Prop where
  | flag {name : String} {flag : Flag} (known : longOptions.lookup name = some (.flag flag)) :
      OptionSpells ("--" ++ name) [.flag flag] none
  | waiting {name : String} {option : PathOption}
      (known : longOptions.lookup name = some (.path option)) :
      OptionSpells ("--" ++ name) [] (some option)
  | equals {name path : String} {option : PathOption}
      (known : longOptions.lookup name = some (.path option)) :
      OptionSpells ("--" ++ name ++ "=" ++ path) [.path option path] none
  | letters {letters : List Char} {words : List Word} {waiting : Option PathOption}
      (some : letters ≠ []) (cluster : Cluster letters words waiting) :
      OptionSpells ("-" ++ String.ofList letters) words waiting

/-- What a command line says, argument by argument. -/
inductive CommandLine : List String → List Word → Prop where
  | nil : CommandLine [] []
  /-- Behind two dashes there are positions only. -/
  | positions (texts : List String) : CommandLine ("--" :: texts) (texts.map .position)
  | position {text : String} {texts : List String} {words : List Word} (plain : ¬IsOption text)
      (rest : CommandLine texts words) : CommandLine (text :: texts) (.position text :: words)
  | option {text : String} {texts : List String} {here words : List Word}
      (spells : OptionSpells text here none) (rest : CommandLine texts words) :
      CommandLine (text :: texts) (here ++ words)
  | path {text path : String} {option : PathOption} {texts : List String} {here words : List Word}
      (spells : OptionSpells text here (some option)) (plain : ¬IsOption path)
      (rest : CommandLine texts words) :
      CommandLine (text :: path :: texts) (here ++ .path option path :: words)

/-- Words that are accepted: no path is empty, and no option is used twice. -/
structure Accepted (words : List Word) : Prop where
  notEmpty : ∀ option, .path option "" ∉ words
  pathsOnce : ((words.filterMap Word.path?).map Prod.fst).Nodup
  flagsOnce : (words.filterMap Word.flag?).Nodup

/-- Words ask for a listing: its positions are those that they name, its paths are those of the
options, and its flags are those among them. -/
structure Asks (words : List Word) (arguments : Arguments) : Prop where
  positions : words.filterMap Word.position? = arguments.start :: arguments.stop?.toList
  path : ∀ option path, arguments.path? option = some path ↔ .path option path ∈ words
  flag : ∀ flag, arguments.has flag = true ↔ .flag flag ∈ words

/-- A command line asks for a listing. -/
def Spells (texts : List String) (arguments : Arguments) : Prop :=
  ∃ words, CommandLine texts words ∧ Accepted words ∧ Asks words arguments

/-! ## One word after the other -/

section

variable {ε α β : Type}

theorem Except.bind_eq_ok_iff {action : Except ε α} {next : α → Except ε β} {result : β} :
    action.bind next = .ok result ↔ ∃ value, action = .ok value ∧ next value = .ok result := by
  cases action with
  | error error => simp [Except.bind]
  | ok value => simp [Except.bind]

theorem Except.map_eq_ok_iff {action : Except ε α} {next : α → β} {result : β} :
    action.map next = .ok result ↔ ∃ value, action = .ok value ∧ next value = result := by
  cases action with
  | error error => simp [Except.map]
  | ok value => simp [Except.map]

end

variable {gathered gathered' : Gathered} {waiting : Option PathOption} {words : List Word}

namespace Gathered

/-- What comes of one more word. -/
def add (gathered : Gathered) : Word → Except Halt Gathered
  | .position text => gathered.addPosition text
  | .path option path => gathered.addPath option path
  | .flag flag => gathered.addFlag flag

/-- Words are added one after the other. -/
def Adds (gathered : Gathered) (words : List Word) (gathered' : Gathered) : Prop :=
  words.foldlM add gathered = .ok gathered'

theorem adds_nil : gathered.Adds [] gathered' ↔ gathered = gathered' := by
  rw [Adds, List.foldlM_nil]
  exact Iff.of_eq (Except.ok.injEq gathered gathered')

theorem adds_cons {word : Word} :
    gathered.Adds (word :: words) gathered' ↔
      ∃ next, gathered.add word = .ok next ∧ next.Adds words gathered' := by
  rw [Adds, List.foldlM_cons]
  exact Except.bind_eq_ok_iff

theorem adds_append {words' : List Word} :
    gathered.Adds (words ++ words') gathered' ↔
      ∃ next, gathered.Adds words next ∧ next.Adds words' gathered' := by
  rw [Adds, List.foldlM_append]
  exact Except.bind_eq_ok_iff

theorem adds_singleton {word : Word} :
    gathered.Adds [word] gathered' ↔ gathered.add word = .ok gathered' := by
  simp [adds_cons, adds_nil]

end Gathered

open Gathered

/-! ## What is gathered -/

/-- What words leave behind: positions in their order, paths and flags with the last one first. -/
def gather (words : List Word) : Gathered where
  positions := words.filterMap Word.position?
  paths := (words.filterMap Word.path?).reverse
  flags := (words.filterMap Word.flag?).reverse

theorem lookup_eq_some_iff_mem {key value : Type} [DecidableEq key] {entries : List (key × value)}
    (once : (entries.map Prod.fst).Nodup) {k : key} {v : value} :
    entries.lookup k = some v ↔ (k, v) ∈ entries := by
  constructor
  · intro found
    obtain ⟨before, behind, rfl, _⟩ := List.lookup_eq_some_iff.mp found
    simp
  · intro listed
    obtain ⟨before, behind, rfl⟩ := List.append_of_mem listed
    refine List.lookup_eq_some_iff.mpr ⟨before, behind, rfl, fun other earlier => ?_⟩
    rw [List.map_append, List.map_cons, List.nodup_append] at once
    exact bne_iff_ne.mpr fun same =>
      once.2.2 other.1 (List.mem_map_of_mem earlier) k List.mem_cons_self same.symm

theorem mem_path?_iff {option : PathOption} {path : String} :
    (option, path) ∈ words.filterMap Word.path? ↔ .path option path ∈ words := by
  rw [List.mem_filterMap]
  constructor
  · rintro ⟨word, said, found⟩
    cases word <;> cases found
    exact said
  · intro said
    exact ⟨_, said, rfl⟩

theorem mem_flag?_iff {flag : Flag} : flag ∈ words.filterMap Word.flag? ↔ .flag flag ∈ words := by
  rw [List.mem_filterMap]
  constructor
  · rintro ⟨word, said, found⟩
    cases word <;> cases found
    exact said
  · intro said
    exact ⟨_, said, rfl⟩

theorem Accepted.of_append {words' : List Word} (accepted : Accepted (words ++ words')) :
    Accepted words where
  notEmpty option said := accepted.notEmpty option (List.mem_append_left _ said)
  pathsOnce := by
    have once := accepted.pathsOnce
    rw [List.filterMap_append, List.map_append] at once
    exact once.of_append_left
  flagsOnce := by
    have once := accepted.flagsOnce
    rw [List.filterMap_append] at once
    exact once.of_append_left

theorem accepted_append_position (accepted : Accepted words) (text : String) :
    Accepted (words ++ [.position text]) := by
  constructor
  · simpa using accepted.notEmpty
  · simpa [List.filterMap_cons, Word.path?] using accepted.pathsOnce
  · simpa [List.filterMap_cons, Word.flag?] using accepted.flagsOnce

theorem accepted_append_path_iff (accepted : Accepted words) {option : PathOption} {path : String} :
    Accepted (words ++ [.path option path]) ↔
      path ≠ "" ∧ option ∉ (words.filterMap Word.path?).map Prod.fst := by
  have paths : (words ++ [Word.path option path]).filterMap Word.path? =
      (words.filterMap Word.path?).concat (option, path) := by
    simp [Word.path?]
  constructor
  · intro both
    have once := both.pathsOnce
    rw [paths, List.map_concat, List.nodup_concat] at once
    refine ⟨?_, once.1⟩
    rintro rfl
    exact both.notEmpty option (by simp)
  · rintro ⟨notEmpty, fresh⟩
    constructor
    · simpa [notEmpty.symm] using accepted.notEmpty
    · rw [paths, List.map_concat, List.nodup_concat]
      exact ⟨fresh, accepted.pathsOnce⟩
    · simpa [List.filterMap_cons, Word.flag?] using accepted.flagsOnce

theorem accepted_append_flag_iff (accepted : Accepted words) {flag : Flag} :
    Accepted (words ++ [.flag flag]) ↔ flag ∉ words.filterMap Word.flag? := by
  have flags : (words ++ [Word.flag flag]).filterMap Word.flag? =
      (words.filterMap Word.flag?).concat flag := by
    simp [Word.flag?]
  constructor
  · intro both
    have once := both.flagsOnce
    rw [flags, List.nodup_concat] at once
    exact once.1
  · intro fresh
    constructor
    · simpa using accepted.notEmpty
    · simpa [List.filterMap_cons, Word.path?] using accepted.pathsOnce
    · rw [flags, List.nodup_concat]
      exact ⟨fresh, accepted.flagsOnce⟩

theorem add_gather_eq_ok_iff {word : Word} (accepted : Accepted words)
    (few : (words.filterMap Word.position?).length ≤ 2) :
    (gather words).add word = .ok gathered ↔
      Accepted (words ++ [word]) ∧ ((words ++ [word]).filterMap Word.position?).length ≤ 2 ∧
        gathered = gather (words ++ [word]) := by
  cases word with
  | position text =>
      have more : gather (words ++ [.position text]) =
          { gather words with positions := (gather words).positions ++ [text] } := by
        simp [gather, List.filterMap_cons, Word.position?, Word.path?, Word.flag?]
      have count : ((words ++ [Word.position text]).filterMap Word.position?).length =
          (gather words).positions.length + 1 := by
        simp [gather, Word.position?]
      rw [add, addPosition, count, more]
      by_cases room : (gather words).positions.length < 2
      · simp [room, accepted_append_position accepted text, @eq_comm _ gathered,
          Nat.succ_le_of_lt room]
      · simp [room]
  | path option path =>
      have more : gather (words ++ [.path option path]) =
          { gather words with paths := (option, path) :: (gather words).paths } := by
        simp [gather, List.filterMap_cons, Word.position?, Word.path?, Word.flag?]
      have same : (words ++ [Word.path option path]).filterMap Word.position? =
          words.filterMap Word.position? := by
        simp [List.filterMap_cons, Word.position?]
      have fresh : (gather words).paths.lookup option = none ↔
          option ∉ (words.filterMap Word.path?).map Prod.fst := by
        rw [gather, List.lookup_eq_none_iff, List.mem_map]
        constructor
        · rintro fresh ⟨entry, listed, rfl⟩
          exact bne_iff_ne.mp (fresh entry (List.mem_reverse.mpr listed)) rfl
        · intro fresh entry listed
          exact bne_iff_ne.mpr fun same => fresh ⟨entry, List.mem_reverse.mp listed, same.symm⟩
      rw [add, addPath, more, same, accepted_append_path_iff accepted, ← fresh]
      cases (gather words).paths.lookup option with
      | none =>
          by_cases empty : path = ""
          · simp [empty]
          · simp [empty, few, @eq_comm _ gathered]
      | some earlier => simp
  | flag flag =>
      have more : gather (words ++ [.flag flag]) =
          { gather words with flags := flag :: (gather words).flags } := by
        simp [gather, List.filterMap_cons, Word.position?, Word.path?, Word.flag?]
      have same : (words ++ [Word.flag flag]).filterMap Word.position? =
          words.filterMap Word.position? := by
        simp [List.filterMap_cons, Word.position?]
      have given : flag ∈ (gather words).flags ↔ flag ∈ words.filterMap Word.flag? :=
        List.mem_reverse
      rw [add, addFlag, more, same, accepted_append_flag_iff accepted, ← given]
      by_cases twice : flag ∈ (gather words).flags
      · simp [twice]
      · simp [twice, few, @eq_comm _ gathered]

theorem adds_empty_iff :
    ({} : Gathered).Adds words gathered ↔
      Accepted words ∧ (words.filterMap Word.position?).length ≤ 2 ∧ gathered = gather words := by
  induction words using List.reverseRecOn generalizing gathered with
  | nil =>
      rw [adds_nil]
      constructor
      · rintro rfl
        exact ⟨⟨by simp, by simp, by simp⟩, by simp, rfl⟩
      · rintro ⟨_, _, rfl⟩
        rfl
  | append_singleton words word ih =>
      rw [adds_append]
      simp only [adds_singleton]
      constructor
      · rintro ⟨next, adds, added⟩
        obtain ⟨accepted, few, rfl⟩ := ih.mp adds
        exact (add_gather_eq_ok_iff accepted few).mp added
      · rintro ⟨accepted, few, same⟩
        have fewer : (words.filterMap Word.position?).length ≤ 2 := by
          rw [List.filterMap_append, List.length_append] at few
          omega
        exact ⟨_, ih.mpr ⟨accepted.of_append, fewer, rfl⟩,
          (add_gather_eq_ok_iff accepted.of_append fewer).mpr ⟨accepted, few, same⟩⟩

theorem Asks.unique {arguments arguments' : Arguments} (asks : Asks words arguments)
    (asks' : Asks words arguments') : arguments = arguments' := by
  obtain ⟨start, stop, path, flag⟩ := arguments
  obtain ⟨start', stop', path', flag'⟩ := arguments'
  have positions := asks.positions.symm.trans asks'.positions
  have paths : path = path' := by
    funext option
    exact Option.ext fun place => (asks.path option place).trans (asks'.path option place).symm
  have flags : flag = flag' := by
    funext option
    exact Bool.eq_iff_iff.mpr ((asks.flag option).trans (asks'.flag option).symm)
  obtain ⟨rfl, stops⟩ := List.cons.inj positions
  obtain rfl : stop = stop' := by simpa using congrArg List.head? stops
  rw [paths, flags]

theorem asks_of_arguments? {arguments : Arguments} (accepted : Accepted words)
    (few : (words.filterMap Word.position?).length ≤ 2)
    (asked : (gather words).arguments? = some arguments) : Asks words arguments := by
  rw [arguments?] at asked
  have here : (gather words).positions = words.filterMap Word.position? := rfl
  rw [here] at asked
  cases positions : words.filterMap Word.position? with
  | nil =>
      rw [positions] at asked
      cases asked
  | cons start rest =>
      rw [positions] at asked few
      cases asked
      refine ⟨?_, ?_, ?_⟩
      · rw [positions]
        match rest, few with
        | [], _ => rfl
        | [stop], _ => rfl
      · intro option path
        have once : ((gather words).paths.map Prod.fst).Nodup := by
          rw [gather, List.map_reverse]
          exact List.nodup_reverse.mpr accepted.pathsOnce
        exact (lookup_eq_some_iff_mem once).trans (List.mem_reverse.trans mem_path?_iff)
      · intro flag
        exact List.contains_iff_mem.trans (List.mem_reverse.trans mem_flag?_iff)

theorem arguments?_gather_eq_some_iff {arguments : Arguments} (accepted : Accepted words)
    (few : (words.filterMap Word.position?).length ≤ 2) :
    (gather words).arguments? = some arguments ↔ Asks words arguments := by
  refine ⟨asks_of_arguments? accepted few, fun asks => ?_⟩
  cases asked : (gather words).arguments? with
  | none =>
      rw [arguments?] at asked
      have positions : (gather words).positions = _ := asks.positions
      rw [positions] at asked
      cases asked
  | some arguments' => rw [asks.unique (asks_of_arguments? accepted few asked)]

end Sm83.Command
