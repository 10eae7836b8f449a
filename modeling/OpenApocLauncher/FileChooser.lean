import Mathlib.Data.List.Sort
import OpenApocLauncher.Config
import OpenApocLauncher.FileTree
import OpenApocLauncher.Regex
import OpenApocLauncher.Utf16

namespace OpenApocLauncher

/-- The external storage as `java.io.File` shows it. `listFiles` answers the names in a directory
in any order, and null where it cannot read them. -/
structure Storage where
  tree : FileTree String (List UInt8)
  listFiles : FilePath → Option (List String)
  plain : ∀ name dir, tree.node (name :: dir) ≠ none → FilePath.Plain name
  nodup : ∀ {dir names}, listFiles dir = some names → names.Nodup
  mem : ∀ {dir names}, listFiles dir = some names →
    ∀ name, name ∈ names ↔ tree.node (name :: dir) ≠ none

namespace Storage

def fileExists (storage : Storage) (file : FilePath) : Bool := storage.tree.exists? file

def isDirectory (storage : Storage) (file : FilePath) : Bool :=
  decide (storage.tree.node file = some .directory)

theorem fileExists_iff {storage : Storage} {file : FilePath} :
    storage.fileExists file = true ↔ storage.tree.node file ≠ none := by
  rw [fileExists, FileTree.exists?, Option.isSome_iff_ne_none]

theorem isDirectory_iff {storage : Storage} {file : FilePath} :
    storage.isDirectory file = true ↔ storage.tree.node file = some .directory :=
  decide_eq_true_iff

theorem fileExists_of_isDirectory {storage : Storage} {file : FilePath}
    (h : storage.isDirectory file = true) : storage.fileExists file = true := by
  rw [fileExists_iff, isDirectory_iff.mp h]
  simp

theorem isDirectory_above {storage : Storage} {dir file : FilePath} (above : dir <:+ file)
    (there : storage.isDirectory file = true) : storage.isDirectory dir = true := by
  by_cases same : dir = file
  · rwa [same]
  · rw [isDirectory_iff] at there ⊢
    exact storage.tree.directory_above above same (by simp [there])

theorem plain_of_exists {storage : Storage} {file : FilePath}
    (there : storage.tree.node file ≠ none) : ∀ name ∈ file, FilePath.Plain name := by
  induction file with
  | nil => simp
  | cons name dir ih =>
    have inside := storage.tree.parent name dir there
    intro other mem
    rcases List.mem_cons.mp mem with rfl | mem
    · exact storage.plain other dir there
    · exact ih (by simp [inside]) other mem

end Storage

def getName (file : FilePath) : String := file.headD ""

/-- A regular expression as its user writes it, and what it compiles to. -/
structure Filter where
  text : String
  pattern : Regex Char

def Filter.accepts (filter : Filter) (name : String) : Bool := filter.pattern.accepts name.toList

/-- A row of the chooser. Only a selectable one answers a click. -/
structure FileItem where
  file : FilePath
  label : String
  selectable : Bool
  deriving DecidableEq

/-- `defaultFolder` is the static field, which one chooser leaves to the next; `items` are the
rows of the layout. The confirmation dialogs are off. -/
structure FileChooserCore where
  filter : Option Filter
  showOnlySelectable : Bool
  canCreateFiles : Bool
  folderMode : Bool
  currentFolder : Option FilePath
  items : List FileItem
  defaultFolder : Option FilePath

/-- What the listeners are told: a file was selected, or is to be created in a folder. -/
inductive Notice
  | selected (file : FilePath)
  | created (folder : FilePath) (name : String)
  deriving DecidableEq

/-- What the user can touch in the chooser. -/
inductive Touch
  | item (position : Nat)
  | ok
  /-- the add button and then the name, accepted -/
  | add (name : String)

/-- The comparator of `loadFolder`. -/
def compareFiles (storage : Storage) (file1 file2 : FilePath) : Int :=
  if storage.isDirectory file1 && !storage.isDirectory file2 then -1
  else if storage.isDirectory file2 && !storage.isDirectory file1 then 1
  else Utf16.compareTo (getName file1) (getName file2)

namespace FileChooserCore

def passes (core : FileChooserCore) (name : String) : Bool :=
  match core.filter with
  | none => true
  | some filter => filter.accepts name

def isSelectable (core : FileChooserCore) (storage : Storage) (file : FilePath) : Bool :=
  storage.isDirectory file || (!core.folderMode && core.passes (getName file))

def parentItem (storage : Storage) : FilePath → List FileItem
  | [] => []
  | _ :: parent => if storage.fileExists parent then [⟨parent, "..", true⟩] else []

def fileItem (core : FileChooserCore) (storage : Storage) (file : FilePath) : Option FileItem :=
  let selectable := core.isSelectable storage file
  if selectable || !core.showOnlySelectable then some ⟨file, getName file, selectable⟩ else none

def folderItems (core : FileChooserCore) (storage : Storage) (folder : FilePath) : List FileItem :=
  match storage.listFiles folder with
  | none => []
  | some names =>
    let fileList := (names.map (· :: folder)).insertionSort
      fun file1 file2 => compareFiles storage file1 file2 ≤ 0
    fileList.filterMap (core.fileItem storage)

def fileItems (core : FileChooserCore) (storage : Storage) (folder : FilePath) : List FileItem :=
  parentItem storage folder ++
    if storage.isDirectory folder then core.folderItems storage folder
    -- the file is not a folder: only this file
    else [⟨folder, getName folder, true⟩]

section Device

variable [Device]

/-- The folder that is loaded for an argument. -/
def folderFor (core : FileChooserCore) (storage : Storage) (folder : Option FilePath) : FilePath :=
  match folder.filter storage.fileExists with
  | some folder => folder
  | none => core.defaultFolder.getD (FilePath.resolve Device.externalStorageDirectory)

def loadFolder (core : FileChooserCore) (storage : Storage) (folder : Option FilePath) :
    FileChooserCore :=
  let currentFolder := core.folderFor storage folder
  if storage.fileExists currentFolder then
    { core with
      currentFolder := some currentFolder
      items := core.fileItems storage currentFolder
      defaultFolder := some currentFolder }
  else { core with currentFolder := some currentFolder, items := [] }

def loadPath (core : FileChooserCore) (storage : Storage) (folderPath : String) : FileChooserCore :=
  core.loadFolder storage (if folderPath.length = 0 then none else some (FilePath.resolve folderPath))

def setFilter (core : FileChooserCore) (storage : Storage) (filter : Option Filter) :
    FileChooserCore :=
  { core with filter := filter.filter fun filter => filter.text.length ≠ 0 }.loadFolder storage
    core.currentFolder

def setFolderMode (core : FileChooserCore) (storage : Storage) (folderMode : Bool) :
    FileChooserCore :=
  { core with folderMode }.loadFolder storage core.currentFolder

def setCanCreateFiles (core : FileChooserCore) (canCreate : Bool) : FileChooserCore :=
  { core with canCreateFiles := canCreate }

def setShowOnlySelectable (core : FileChooserCore) (storage : Storage) (shown : Bool) :
    FileChooserCore :=
  { core with showOnlySelectable := shown }.loadFolder storage core.currentFolder

/-- The constructor; `setFolderMode` loads a folder before `currentFolder` is cleared. -/
def create (storage : Storage) (defaultFolder : Option FilePath) : FileChooserCore :=
  let core : FileChooserCore := ⟨none, false, false, false, none, [], defaultFolder⟩
  { (core.setCanCreateFiles false).setFolderMode storage false with currentFolder := none }

/-- `FileChooserDialog`'s constructor and `FileChooserActivity.onCreate` without extras. -/
def openAt (storage : Storage) (defaultFolder : Option FilePath) (folderPath : String) :
    FileChooserCore :=
  (create storage defaultFolder).loadPath storage folderPath

/-- What a touch loads. -/
def touch (core : FileChooserCore) (storage : Storage) : Touch → FileChooserCore
  | .item position =>
    match core.items[position]? with
    | none => core
    | some item =>
      if item.selectable && storage.isDirectory item.file then core.loadFolder storage (some item.file)
      else core
  | _ => core

/-- What a touch tells the listeners. The ok button is there in folder mode, the add button when
files can be created. -/
def notice (core : FileChooserCore) (storage : Storage) : Touch → Option Notice
  | .item position =>
    match core.items[position]? with
    | none => none
    | some item =>
      if item.selectable && !storage.isDirectory item.file then some (.selected item.file) else none
  | .ok => if core.folderMode then core.currentFolder.map .selected else none
  | .add name =>
    if core.canCreateFiles && name.length > 0 then core.currentFolder.map (.created · name) else none

end Device

section Notices

variable {core : FileChooserCore} {storage : Storage} {notice : Notice}

theorem notice_item {position : Nat} (h : core.notice storage (.item position) = some notice) :
    ∃ item ∈ core.items, item.selectable = true ∧ storage.isDirectory item.file = false ∧
      notice = .selected item.file := by
  simp only [FileChooserCore.notice] at h
  cases found : core.items[position]? with
  | none => simp [found] at h
  | some item =>
    simp only [found] at h
    split at h
    next selects =>
      rw [Bool.and_eq_true, Bool.not_eq_true'] at selects
      exact ⟨item, List.mem_of_getElem? found, selects.1, selects.2, (Option.some.inj h).symm⟩
    next => simp at h

theorem notice_ok (h : core.notice storage .ok = some notice) :
    core.folderMode = true ∧ ∃ folder, core.currentFolder = some folder ∧ notice = .selected folder := by
  rw [FileChooserCore.notice] at h
  split at h
  next mode =>
    obtain ⟨folder, current, told⟩ := Option.map_eq_some_iff.mp h
    exact ⟨mode, folder, current, told.symm⟩
  next => simp at h

theorem notice_add {name : String} (h : core.notice storage (.add name) = some notice) :
    (core.canCreateFiles = true ∧ 0 < name.length) ∧
      ∃ folder, core.currentFolder = some folder ∧ notice = .created folder name := by
  rw [FileChooserCore.notice] at h
  split at h
  next creates =>
    rw [Bool.and_eq_true, decide_eq_true_eq] at creates
    obtain ⟨folder, current, told⟩ := Option.map_eq_some_iff.mp h
    exact ⟨creates, folder, current, told.symm⟩
  next => simp at h

end Notices

end FileChooserCore

section Order

variable {storage : Storage}

theorem compareFiles_nonpos_iff (file1 file2 : FilePath) :
    compareFiles storage file1 file2 ≤ 0 ↔
      storage.isDirectory file1 = true ∧ storage.isDirectory file2 = false ∨
        storage.isDirectory file1 = storage.isDirectory file2 ∧
          Utf16.codeUnits (getName file1) ≤ Utf16.codeUnits (getName file2) := by
  rw [← Utf16.compareTo_nonpos_iff]
  unfold compareFiles
  cases storage.isDirectory file1 <;> cases storage.isDirectory file2 <;> simp

theorem compareFiles_eq_zero {file1 file2 : FilePath} (h : compareFiles storage file1 file2 = 0) :
    getName file1 = getName file2 := by
  rw [← Utf16.compareTo_eq_zero_iff]
  revert h
  unfold compareFiles
  cases storage.isDirectory file1 <;> cases storage.isDirectory file2 <;> simp

theorem compareFiles_self (file : FilePath) : compareFiles storage file file = 0 := by
  have same := (Utf16.compareTo_eq_zero_iff (getName file) (getName file)).mpr rfl
  simp [compareFiles, same]

instance : Std.Total fun file1 file2 => compareFiles storage file1 file2 ≤ 0 where
  total file1 file2 := by
    simp only [compareFiles_nonpos_iff]
    cases storage.isDirectory file1 <;> cases storage.isDirectory file2 <;> simp [le_total]

instance : IsTrans FilePath fun file1 file2 => compareFiles storage file1 file2 ≤ 0 where
  trans file1 file2 file3 first second := by
    rw [compareFiles_nonpos_iff] at first second ⊢
    rcases first with ⟨dir, file⟩ | ⟨same, le⟩
    · rcases second with ⟨dir', _⟩ | ⟨same', _⟩
      · simp [dir'] at file
      · exact Or.inl ⟨dir, same' ▸ file⟩
    · rcases second with ⟨dir', file'⟩ | ⟨same', le'⟩
      · exact Or.inl ⟨same ▸ dir', file'⟩
      · exact Or.inr ⟨same.trans same', le.trans le'⟩

/-- In a strictly ascending list folders come first and each kind is in the order of its names. -/
theorem compareFiles_neg_iff (file1 file2 : FilePath) :
    compareFiles storage file1 file2 < 0 ↔
      storage.isDirectory file1 = true ∧ storage.isDirectory file2 = false ∨
        storage.isDirectory file1 = storage.isDirectory file2 ∧
          Utf16.codeUnits (getName file1) < Utf16.codeUnits (getName file2) := by
  rw [← Utf16.compareUnits_neg_iff, ← Utf16.compareTo]
  unfold compareFiles
  cases storage.isDirectory file1 <;> cases storage.isDirectory file2 <;> simp

instance : Std.Irrefl fun a b : FileItem => compareFiles storage a.file b.file < 0 where
  irrefl item := by simp [compareFiles_self]

instance : Std.Antisymm fun a b : FileItem => compareFiles storage a.file b.file < 0 where
  antisymm a b first second := by
    rw [compareFiles_neg_iff] at first second
    rcases first with ⟨dir, file⟩ | ⟨same, lt⟩
    · rcases second with ⟨dir', _⟩ | ⟨same', _⟩
      · simp [dir'] at file
      · simp [dir, file] at same'
    · rcases second with ⟨dir', file'⟩ | ⟨_, lt'⟩
      · simp [dir', file'] at same
      · exact absurd lt' lt.asymm

end Order

namespace FileChooserCore

/-- The rows for a folder: one for each file or folder in it that may be shown, folders first
and each kind by name. -/
structure IsListing (core : FileChooserCore) (storage : Storage) (folder : FilePath)
    (items : List FileItem) : Prop where
  mem : ∀ item, item ∈ items ↔ ∃ name, storage.tree.node (name :: folder) ≠ none ∧
    item = ⟨name :: folder, name, core.isSelectable storage (name :: folder)⟩ ∧
    (item.selectable = true ∨ core.showOnlySelectable = false)
  sorted : items.Pairwise fun a b => compareFiles storage a.file b.file < 0

theorem mem_fileItem {core : FileChooserCore} {storage : Storage} {file : FilePath} {item : FileItem} :
    core.fileItem storage file = some item ↔
      item = ⟨file, getName file, core.isSelectable storage file⟩ ∧
        (item.selectable = true ∨ core.showOnlySelectable = false) := by
  simp only [fileItem]
  constructor
  · intro h
    split at h
    next shown =>
      cases Option.some.inj h
      exact ⟨rfl, by simpa using shown⟩
    next => simp at h
  · rintro ⟨rfl, shown⟩
    exact if_pos (by simpa using shown)

theorem folderItems_isListing (core : FileChooserCore) {storage : Storage} {folder : FilePath}
    {names : List String} (listed : storage.listFiles folder = some names) :
    core.IsListing storage folder (core.folderItems storage folder) := by
  have items : core.folderItems storage folder =
      ((names.map (· :: folder)).insertionSort
        fun file1 file2 => compareFiles storage file1 file2 ≤ 0).filterMap (core.fileItem storage) := by
    rw [folderItems, listed]
  rw [items]
  constructor
  · intro item
    rw [List.mem_filterMap]
    constructor
    · rintro ⟨file, mem, shown⟩
      obtain ⟨name, inside, rfl⟩ := List.mem_map.mp ((List.mem_insertionSort _).mp mem)
      obtain ⟨rfl, shown⟩ := mem_fileItem.mp shown
      exact ⟨name, (storage.mem listed name).mp inside, rfl, shown⟩
    · rintro ⟨name, there, rfl, shown⟩
      refine ⟨name :: folder, ?_, mem_fileItem.mpr ⟨rfl, shown⟩⟩
      exact (List.mem_insertionSort _).mpr (List.mem_map.mpr ⟨name, (storage.mem listed name).mpr there, rfl⟩)
  · -- sorted by the comparator, and no two names of one folder are equal
    have sorted := List.pairwise_insertionSort
      (fun file1 file2 => compareFiles storage file1 file2 ≤ 0) (names.map (· :: folder))
    have distinct : ((names.map (· :: folder)).insertionSort
        fun file1 file2 => compareFiles storage file1 file2 ≤ 0).Pairwise
        fun file1 file2 => getName file1 ≠ getName file2 := by
      rw [(List.perm_insertionSort _ _).pairwise_iff fun h => Ne.symm h, List.pairwise_map]
      exact storage.nodup listed
    apply (sorted.and distinct).filterMap
    rintro file1 file2 ⟨le, differ⟩ item1 own1 item2 own2
    obtain ⟨rfl, _⟩ := mem_fileItem.mp own1
    obtain ⟨rfl, _⟩ := mem_fileItem.mp own2
    have notZero : compareFiles storage file1 file2 ≠ 0 := fun zero => differ (compareFiles_eq_zero zero)
    change compareFiles storage file1 file2 < 0
    omega

/-- The listing of a folder is the only one there is: it does not depend on the order in which
`listFiles` answers, nor on the way of sorting. -/
theorem folderItems_iff (core : FileChooserCore) {storage : Storage} {folder : FilePath}
    {names : List String} (listed : storage.listFiles folder = some names) (items : List FileItem) :
    items = core.folderItems storage folder ↔ core.IsListing storage folder items := by
  have own := core.folderItems_isListing listed
  constructor
  · rintro rfl
    exact own
  · intro other
    apply other.sorted.eq_of_mem_iff own.sorted
    intro item
    rw [other.mem, own.mem]

end FileChooserCore

def Storage.childIn (dir : FilePath) : FilePath → Option String
  | [] => none
  | name :: up => if up = dir then some name else none

/-- The storage with just these files and the folders above them. -/
def Storage.ofFiles (files : List FilePath) (fit : FileTree.FilesFit files)
    (plain : ∀ file ∈ files, ∀ name ∈ file, FilePath.Plain name) : Storage :=
  have there {name : String} {dir : FilePath} :
      (FileTree.ofFiles files ([] : List UInt8) fit).node (name :: dir) ≠ none ↔
        ∃ file ∈ files, name :: dir <:+ file := by
    constructor
    · intro found
      by_contra apart
      push Not at apart
      exact found (FileTree.ofFiles_node_none [] fit (by simp) apart)
    · rintro ⟨file, mem, above⟩
      simp only [FileTree.ofFiles]
      split
      next => simp
      next => simp [show ∃ file ∈ files, name :: dir <:+ file from ⟨file, mem, above⟩]
  { tree := FileTree.ofFiles files [] fit
    listFiles := fun dir => some ((files.flatMap List.tails).filterMap (childIn dir)).dedup
    plain := by
      intro name dir found
      obtain ⟨file, mem, above⟩ := there.mp found
      exact plain file mem name (above.subset List.mem_cons_self)
    nodup := by
      rintro dir names listed
      cases Option.some.inj listed
      exact List.nodup_dedup _
    mem := by
      rintro dir names listed name
      cases Option.some.inj listed
      rw [there, List.mem_dedup, List.mem_filterMap]
      constructor
      · rintro ⟨path, inside, child⟩
        obtain ⟨file, mem, above⟩ := List.mem_flatMap.mp inside
        cases path with
        | nil => simp [childIn] at child
        | cons first up =>
          simp only [childIn] at child
          split at child
          next same =>
            cases Option.some.inj child
            exact ⟨file, mem, same ▸ (List.mem_tails _ _).mp above⟩
          next => simp at child
      · rintro ⟨file, mem, above⟩
        exact ⟨name :: dir, List.mem_flatMap.mpr ⟨file, mem, (List.mem_tails _ _).mpr above⟩, by
          simp [childIn]⟩ }

section Concrete

/-- A card with two images and a folder that holds a third. -/
def Storage.card : Storage :=
  .ofFiles [["b.iso", "sdcard"], ["a.txt", "sdcard"], ["XCOM.ISO", "cd", "sdcard"]] (by decide)
    (by decide)

def FileChooserCore.plainCore : FileChooserCore := ⟨none, false, false, false, none, [], none⟩

theorem folderItems_iff_card :
    ([⟨["cd", "sdcard"], "cd", true⟩, ⟨["a.txt", "sdcard"], "a.txt", true⟩,
        ⟨["b.iso", "sdcard"], "b.iso", true⟩] : List FileItem) =
        FileChooserCore.plainCore.folderItems .card ["sdcard"] ↔
      FileChooserCore.plainCore.IsListing .card ["sdcard"]
        [⟨["cd", "sdcard"], "cd", true⟩, ⟨["a.txt", "sdcard"], "a.txt", true⟩,
          ⟨["b.iso", "sdcard"], "b.iso", true⟩] := by
  have listed : Storage.card.listFiles ["sdcard"] = some ["b.iso", "a.txt", "cd"] := by decide +kernel
  exact FileChooserCore.folderItems_iff _ listed _

end Concrete

end OpenApocLauncher
