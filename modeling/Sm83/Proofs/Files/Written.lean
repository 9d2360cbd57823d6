import Sm83.Files.Tree

/-!
# What writing a file changes

A path that can be written leads through directories to a place that is none. So writing changes
what is at this place and nothing else, and the path leads there as before: `wrote_of_write`.
-/

namespace Sm83.Files.Tree

variable {tree tree' : Tree} {path : String} {place : List String} {content : ByteArray}

/-- A path leads to a place. -/
def LeadsTo (tree : Tree) (path : String) (place : List String) : Prop :=
  tree.locate path (Path.names path) = .ok place

/-- A file was written under a path: the place that the path leads to has the content, and all other
places have what they had. -/
structure WroteAt (tree : Tree) (path : String) (content : ByteArray) (place : List String)
    (tree' : Tree) : Prop where
  before : tree.LeadsTo path place
  after : tree'.LeadsTo path place
  here : tree'.node? place = some (.file content)
  elsewhere : ∀ other, other ≠ place → tree'.node? other = tree.node? other

/-- A file was written under a path, and nothing else happened. -/
def Wrote (tree : Tree) (path : String) (content : ByteArray) (tree' : Tree) : Prop :=
  ∃ place, tree.WroteAt path content place tree'

theorem LeadsTo.read_eq (leads : tree.LeadsTo path place)
    (file : tree.node? place = some (.file content)) : tree.read path = .ok content := by
  rw [Tree.read, leads]
  simp only [file]

theorem LeadsTo.contains_eq (leads : tree.LeadsTo path place) :
    tree.contains path = (tree.node? place).isSome := by
  rw [Tree.contains, leads]

theorem Wrote.read (wrote : tree.Wrote path content tree') : tree'.read path = .ok content := by
  obtain ⟨place, at'⟩ := wrote
  exact at'.after.read_eq at'.here

/-! ## Walks through directories -/

theorem directoryFault?_eq_none_iff :
    tree.directoryFault? place = none ↔ tree.node? place = some .directory := by
  rw [directoryFault?]
  cases tree.node? place with
  | none => simp
  | some node => cases node <;> simp

/-- A walk does not miss what is at places that are no directories. -/
theorem walk_of_directories
    (keeps : ∀ place, tree.node? place = some .directory → tree'.node? place = some .directory)
    {start names : List String} (leads : tree.walk start names = .ok place) :
    tree'.walk start names = .ok place := by
  induction names generalizing start with
  | nil => exact leads
  | cons name names ih =>
      rw [walk] at leads ⊢
      cases found : tree.directoryFault? start with
      | some fault => simp [found] at leads
      | none =>
          have kept := keeps start (directoryFault?_eq_none_iff.mp found)
          simp only [found, directoryFault?_eq_none_iff.mpr kept] at leads ⊢
          by_cases stays : name = "" ∨ name = "."
          · simp only [stays, if_true] at leads ⊢
            exact ih leads
          · by_cases back : name = ".."
            · simp only [back, if_true] at leads ⊢
              exact ih leads
            · simp only [stays, back, if_false] at leads ⊢
              exact ih leads

theorem leadsTo_of_directories
    (keeps : ∀ place, tree.node? place = some .directory → tree'.node? place = some .directory)
    (leads : tree.LeadsTo path place) : tree'.LeadsTo path place := by
  rw [LeadsTo, locate] at leads ⊢
  by_cases empty : path.isEmpty
  · simp [empty] at leads
  · simp only [empty] at leads ⊢
    exact walk_of_directories keeps leads

/-! ## Files in a directory -/

/-- A text names something in a directory: it is not empty, is no name that stays in the directory
or leaves it, and holds no slash. -/
structure IsName (name : String) : Prop where
  notEmpty : name ≠ ""
  notHere : name ≠ "."
  notOuter : name ≠ ".."
  noSlash : '/' ∉ name.toList

section

variable {name : String}

theorem IsName.isAbsolute_eq_false (isName : IsName name) : Path.isAbsolute name = false := by
  refine beq_false_of_ne fun slash => isName.noSlash ?_
  exact List.mem_of_head? slash

theorem IsName.names_eq (isName : IsName name) : Path.names name = [name] := by
  rw [Path.names, List.splitOn_eq_singleton isName.noSlash, List.map_singleton,
    String.ofList_toList]

theorem IsName.names_here (isName : IsName name) : Path.names ("./" ++ name) = [".", name] := by
  have parts : ("./" ++ name).toList = ['.'] ++ '/' :: name.toList := by simp
  have split : ("./" ++ name).toList.splitOn '/' =
      ['.'].splitOn '/' ++ name.toList.splitOn '/' := by
    rw [parts]
    exact List.splitOnP_append_cons _ _ (beq_self_eq_true '/')
  rw [Path.names, split, List.splitOn_eq_singleton isName.noSlash,
    List.splitOn_eq_singleton (by decide)]
  simp

theorem IsName.leadsTo (isName : IsName name) : tree.LeadsTo name [name] := by
  simp [LeadsTo, locate, isName.names_eq, isName.notEmpty, isName.isAbsolute_eq_false, walk,
    directoryFault?, node?, isOuter, isName.notHere, isName.notOuter]

theorem IsName.leadsTo_here (isName : IsName name) : tree.LeadsTo ("./" ++ name) [name] := by
  have relative : Path.isAbsolute ("./" ++ name) = false := by
    simp [Path.isAbsolute]
  simp [LeadsTo, locate, isName.names_here, relative, walk, directoryFault?, node?, isOuter,
    isName.notEmpty, isName.notHere, isName.notOuter]

end

/-! ## Writing -/

theorem LeadsTo.write_eq (leads : tree.LeadsTo path place)
    (notDirectory : tree.node? place ≠ some .directory) {name : String}
    (last : (Path.names path).getLast? = some name) (file : name ≠ "") :
    tree.write path content = .ok (tree.set place (.file content)) := by
  have kept : ((Path.names path).reverse.dropWhile (· == "")).reverse = Path.names path := by
    obtain ⟨front, names⟩ := List.getLast?_eq_some_iff.mp last
    simp [names, file]
  have target : tree.target path = .ok place := by
    simp only [Tree.target, kept, Nat.lt_irrefl, if_false]
    rw [leads]
    cases there : tree.node? place with
    | none => simp only [there]
    | some node =>
        cases node with
        | directory => exact absurd there notDirectory
        | file content => simp only [there]
  rw [Tree.write, target]
  rfl

theorem IsName.write_here {name : String} (isName : IsName name)
    (notDirectory : tree.node? [name] ≠ some .directory) :
    tree.write ("./" ++ name) content = .ok (tree.set [name] (.file content)) := by
  have last : (Path.names ("./" ++ name)).getLast? = some name := by
    rw [isName.names_here]
    rfl
  exact isName.leadsTo_here.write_eq notDirectory last isName.notEmpty

theorem leadsTo_of_target (target : tree.target path = .ok place) :
    tree.LeadsTo path place ∧ tree.node? place ≠ some .directory := by
  simp only [Tree.target] at target
  split at target
  · cases located : tree.locate path _ with
    | error fault => rw [located] at target; cases target
    | ok _ => rw [located] at target; cases target
  · split at target
    · cases target
    · next found located =>
        cases there : tree.node? found with
        | none =>
            rw [there] at target
            obtain rfl := Except.ok.inj target
            exact ⟨located, by simp [there]⟩
        | some node =>
            rw [there] at target
            cases node with
            | directory => cases target
            | file old =>
                obtain rfl := Except.ok.inj target
                exact ⟨located, by simp [there]⟩

theorem node?_set_self {node : Node} (notDirectory : tree.node? place ≠ some .directory) :
    (tree.set place node).node? place = some node := by
  have inner : isOuter place = false := by
    cases outer : isOuter place with
    | false => rfl
    | true => exact absurd (by rw [node?, outer]; rfl) notDirectory
  simp [node?, set, inner]

theorem wrote_of_write (written : tree.write path content = .ok tree') :
    tree.Wrote path content tree' := by
  rw [Tree.write] at written
  cases target : tree.target path with
  | error fault => rw [target] at written; cases written
  | ok place =>
      rw [target] at written
      obtain rfl := Except.ok.inj written
      obtain ⟨leads, notDirectory⟩ := leadsTo_of_target target
      have elsewhere : ∀ other, other ≠ place →
          (tree.set place (.file content)).node? other = tree.node? other :=
        fun _ apart => node?_set_of_ne apart
      refine ⟨place, leads, ?_, node?_set_self notDirectory, elsewhere⟩
      apply leadsTo_of_directories _ leads
      intro other directory
      have apart : other ≠ place := by
        rintro rfl
        exact notDirectory directory
      rw [elsewhere other apart]
      exact directory

end Sm83.Files.Tree
