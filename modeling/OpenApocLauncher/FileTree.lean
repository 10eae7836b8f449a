import Mathlib.Logic.Function.Basic
import Mathlib.Data.List.Infix

/-! Trees of directories and files, with the operations of a file system on them. -/

/-- Path strings and the path they resolve to, innermost component first. -/
abbrev FilePath := List String

namespace FilePath

def components (path : String) : List String := (path.toList.splitOn '/').map String.ofList

def enter (dir : FilePath) (component : String) : FilePath :=
  if component = "" ∨ component = "." then dir
  else if component = ".." then dir.tail
  else component :: dir

def resolveFrom (dir : FilePath) (path : String) : FilePath := (components path).foldl enter dir

/-- Lexical resolution of a path string from the root. -/
def resolve (path : String) : FilePath := resolveFrom [] path

theorem foldl_enter {dir : FilePath} {names : List String}
    (plain : ∀ name ∈ names, name ≠ "" ∧ name ≠ "." ∧ name ≠ "..") :
    names.foldl enter dir = names.reverse ++ dir := by
  induction names generalizing dir with
  | nil => rfl
  | cons name names ih =>
    obtain ⟨full, here, down⟩ := plain name List.mem_cons_self
    have entered : enter dir name = name :: dir := by simp [enter, full, here, down]
    rw [List.foldl_cons, entered, ih fun other mem => plain other (List.mem_cons_of_mem _ mem)]
    simp

theorem components_join (path name : String) :
    components (path ++ "/" ++ name) = components path ++ components name := by
  simp only [components, String.toList_append]
  rw [show "/".toList = ['/'] from rfl, List.append_assoc, List.singleton_append,
    List.splitOn_append_cons_self, List.map_append]

theorem resolve_join (path name : String) :
    resolve (path ++ "/" ++ name) = resolveFrom (resolve path) name := by
  simp only [resolve, resolveFrom, components_join, List.foldl_append]

/-- The names that a directory can hold. -/
def Plain (name : String) : Prop := name ≠ "" ∧ name ≠ "." ∧ name ≠ ".." ∧ '/' ∉ name.toList

instance (name : String) : Decidable (Plain name) := inferInstanceAs (Decidable (_ ∧ _))

def joined : FilePath → String
  | [] => ""
  | name :: dir => joined dir ++ "/" ++ name

/-- The path string of an absolute path. -/
def absolute : FilePath → String
  | [] => "/"
  | name :: dir => joined (name :: dir)

theorem components_plain {name : String} (plain : Plain name) : components name = [name] := by
  rw [components, List.splitOn_eq_singleton plain.2.2.2]
  simp

theorem resolve_joined {path : FilePath} (plain : ∀ name ∈ path, Plain name) :
    resolve (joined path) = path := by
  induction path with
  | nil => decide
  | cons name dir ih =>
    have own := plain name List.mem_cons_self
    have entered : enter dir name = name :: dir := by simp [enter, own.1, own.2.1, own.2.2.1]
    rw [joined, resolve_join, ih fun other mem => plain other (List.mem_cons_of_mem _ mem), resolveFrom,
      components_plain own, List.foldl_cons, List.foldl_nil, entered]

theorem resolve_absolute {path : FilePath} (plain : ∀ name ∈ path, Plain name) :
    resolve (absolute path) = path := by
  cases path with
  | nil => decide
  | cons name dir => exact resolve_joined plain

end FilePath

inductive FileNode (α : Type)
  | directory
  | file (content : α)
  deriving DecidableEq

/-- What exists where; everything that exists lies in an existing directory. -/
structure FileTree (ν α : Type) where
  node : List ν → Option (FileNode α)
  root : node [] = some .directory
  parent : ∀ name dir, node (name :: dir) ≠ none → node dir = some .directory

namespace FileTree

variable {ν α : Type}

def empty : FileTree ν α where
  node path := match path with
    | [] => some .directory
    | _ :: _ => none
  root := rfl
  parent := by simp

theorem directory_above (tree : FileTree ν α) {dir path : List ν} (above : dir <:+ path)
    (proper : dir ≠ path) (there : tree.node path ≠ none) : tree.node dir = some .directory := by
  induction path with
  | nil => exact absurd (List.suffix_nil.mp above) proper
  | cons name up ih =>
    have inside := tree.parent name up there
    have above' := (List.suffix_cons_iff.mp above).resolve_left proper
    by_cases same : dir = up
    · rw [same, inside]
    · exact ih above' same (by simp [inside])

/-- Files that one tree can hold together. -/
def FilesFit (files : List (List ν)) : Prop :=
  [] ∉ files ∧ ∀ file ∈ files, ∀ other ∈ files, file <:+ other → file = other

def exists? (tree : FileTree ν α) (path : List ν) : Bool := (tree.node path).isSome

/-- How many of the path and the places above it are missing. -/
def missing (tree : FileTree ν α) : List ν → Nat
  | [] => 0
  | name :: dir => if tree.exists? (name :: dir) then 0 else tree.missing dir + 1

theorem missing_of_exists (tree : FileTree ν α) {path : List ν} (there : tree.node path ≠ none) :
    tree.missing path = 0 := by
  cases path with
  | nil => rfl
  | cons name dir => rw [missing, exists?, if_pos (Option.isSome_iff_ne_none.mpr there)]

theorem missing_of_absent (tree : FileTree ν α) {name : ν} {dir : List ν}
    (absent : tree.node (name :: dir) = none) : tree.missing (name :: dir) = tree.missing dir + 1 := by
  rw [missing, exists?, absent]
  rfl

theorem missing_pos (tree : FileTree ν α) {path : List ν} (absent : tree.node path = none) :
    0 < tree.missing path := by
  cases path with
  | nil => simp [tree.root] at absent
  | cons name dir =>
    rw [tree.missing_of_absent absent]
    exact Nat.succ_pos _

theorem node_drop_missing (tree : FileTree ν α) (path : List ν) :
    tree.node (path.drop (tree.missing path)) ≠ none := by
  induction path with
  | nil => simp [tree.root]
  | cons name dir ih =>
    by_cases absent : tree.node (name :: dir) = none
    · rwa [tree.missing_of_absent absent, List.drop_succ_cons]
    · rwa [tree.missing_of_exists absent]

variable [DecidableEq ν]

instance (files : List (List ν)) : Decidable (FilesFit files) :=
  inferInstanceAs (Decidable (_ ∧ _))

/-- The tree with just these files and the directories above them. -/
def ofFiles (files : List (List ν)) (content : α) (fit : FilesFit files) : FileTree ν α where
  node path :=
    if path ∈ files then some (.file content)
    else if path = [] ∨ ∃ file ∈ files, path <:+ file then some .directory
    else none
  root := by simp [fit.1]
  parent name dir there := by
    have above : ∃ file ∈ files, name :: dir <:+ file := by
      split at there
      next mem => exact ⟨_, mem, List.suffix_refl _⟩
      next => simpa using there
    obtain ⟨file, mem, below⟩ := above
    have up := (List.suffix_cons name dir).trans below
    have notFile : dir ∉ files := by
      intro mem'
      have same := fit.2 dir mem' file mem up
      have length := below.length_le
      rw [← same, List.length_cons] at length
      omega
    rw [if_neg notFile, if_pos (Or.inr ⟨file, mem, up⟩)]

theorem ofFiles_node_none {files : List (List ν)} (content : α) (fit : FilesFit files)
    {path : List ν} (inside : path ≠ []) (apart : ∀ file ∈ files, ¬path <:+ file) :
    (ofFiles files content fit).node path = none := by
  have notFile : path ∉ files := fun mem => apart path mem (List.suffix_refl _)
  simpa [ofFiles, notFile, inside] using apart

def place (tree : FileTree ν α) (name : ν) (dir : List ν) (node : FileNode α)
    (inside : tree.node dir = some .directory)
    (free : tree.node (name :: dir) ≠ some .directory) : FileTree ν α where
  node := Function.update tree.node (name :: dir) (some node)
  root := by simpa [Function.update] using tree.root
  parent child up there := by
    by_cases same : child :: up = name :: dir
    · obtain ⟨rfl, rfl⟩ := List.cons.inj same
      simpa [Function.update] using inside
    · rw [Function.update_of_ne same] at there
      have directory := tree.parent child up there
      have other : up ≠ name :: dir := by
        rintro rfl
        exact free directory
      rwa [Function.update_of_ne other]

@[simp] theorem place_node_self (tree : FileTree ν α) {name : ν} {dir : List ν} (node : FileNode α)
    (inside : tree.node dir = some .directory) (free : tree.node (name :: dir) ≠ some .directory) :
    (tree.place name dir node inside free).node (name :: dir) = some node := by
  simp [place]

theorem place_node_other (tree : FileTree ν α) {name : ν} {dir path : List ν} (node : FileNode α)
    (inside : tree.node dir = some .directory) (free : tree.node (name :: dir) ≠ some .directory)
    (h : path ≠ name :: dir) :
    (tree.place name dir node inside free).node path = tree.node path := by
  simp [place, h]

variable [DecidableEq α]

/-- Make one directory; its parent must be there and its own place empty. -/
def mkdir (tree : FileTree ν α) : List ν → Option (FileTree ν α)
  | [] => none
  | name :: dir =>
    if h : tree.node dir = some .directory ∧ tree.node (name :: dir) = none then
      some (tree.place name dir .directory h.1 (by simp [h.2]))
    else none

/-- Replace the content of a file, or make the file; its parent must be there and no
directory in its place. -/
def store (tree : FileTree ν α) (content : α) : List ν → Option (FileTree ν α)
  | [] => none
  | name :: dir =>
    if h : tree.node dir = some .directory ∧ tree.node (name :: dir) ≠ some .directory then
      some (tree.place name dir (.file content) h.1 h.2)
    else none

theorem mkdir_of_free (tree : FileTree ν α) {name : ν} {dir : List ν}
    (inside : tree.node dir = some .directory) (free : tree.node (name :: dir) = none) :
    ∃ made, tree.mkdir (name :: dir) = some made :=
  ⟨tree.place name dir .directory inside (by simp [free]), by simp [mkdir, inside, free]⟩

theorem mkdir_of_no_parent (tree : FileTree ν α) {name : ν} {dir : List ν}
    (outside : tree.node dir ≠ some .directory) : tree.mkdir (name :: dir) = none := by
  simp [mkdir, outside]

theorem store_isSome_iff (tree : FileTree ν α) (content : α) (name : ν) (dir : List ν) :
    (tree.store content (name :: dir)).isSome ↔
      tree.node dir = some .directory ∧ tree.node (name :: dir) ≠ some .directory := by
  rw [store]
  split
  next free => simp [free]
  next taken => simpa using taken

theorem mkdir_node {tree made : FileTree ν α} {path : List ν} (h : tree.mkdir path = some made) :
    tree.node path = none ∧ made.node path = some .directory ∧
      ∀ other ≠ path, made.node other = tree.node other := by
  cases path with
  | nil => simp [mkdir] at h
  | cons name dir =>
    simp only [mkdir] at h
    split at h
    next free =>
      cases Option.some.inj h
      exact ⟨free.2, place_node_self _ _ _ _, fun _ => place_node_other _ _ _ _⟩
    next => simp at h

theorem store_node {tree stored : FileTree ν α} {content : α} {path : List ν}
    (h : tree.store content path = some stored) :
    tree.node path ≠ some .directory ∧ stored.node path = some (.file content) ∧
      ∀ other ≠ path, stored.node other = tree.node other := by
  cases path with
  | nil => simp [store] at h
  | cons name dir =>
    simp only [store] at h
    split at h
    next free =>
      cases Option.some.inj h
      exact ⟨free.2, place_node_self _ _ _ _, fun _ => place_node_other _ _ _ _⟩
    next => simp at h

theorem store_of_file (tree : FileTree ν α) {path : List ν} {old : α} (content : α)
    (h : tree.node path = some (.file old)) : ∃ stored, tree.store content path = some stored := by
  cases path with
  | nil => simp [tree.root] at h
  | cons name dir =>
    have inside := tree.parent name dir (by simp [h])
    exact ⟨tree.place name dir (.file content) inside (by simp [h]), by simp [store, inside, h]⟩

end FileTree
