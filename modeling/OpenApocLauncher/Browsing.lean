import OpenApocLauncher.FileChooser
import OpenApocLauncher.Machine

namespace OpenApocLauncher

open Machine

def Storage.Readable (storage : Storage) : Prop :=
  ∀ dir, storage.isDirectory dir = true → ∃ names, storage.listFiles dir = some names

namespace FileChooserCore

/-- The chooser with an existing folder loaded. -/
def opened (core : FileChooserCore) (storage : Storage) (folder : FilePath) : FileChooserCore :=
  { core with
    currentFolder := some folder
    items := core.fileItems storage folder
    defaultFolder := some folder }

section Rows

variable (core : FileChooserCore) {storage : Storage}

theorem mem_parentItem {folder : FilePath} (dir : storage.isDirectory folder = true) {item : FileItem} :
    item ∈ parentItem storage folder ↔ ∃ name parent, folder = name :: parent ∧
      storage.isDirectory parent = true ∧ item = ⟨parent, "..", true⟩ := by
  cases folder with
  | nil => simp [parentItem]
  | cons name parent =>
    have above := Storage.isDirectory_above (List.suffix_cons name parent) dir
    rw [parentItem, if_pos (Storage.fileExists_of_isDirectory above), List.mem_singleton]
    constructor
    · rintro rfl
      exact ⟨name, parent, rfl, above, rfl⟩
    · rintro ⟨_, _, same, _, rfl⟩
      rw [(List.cons.inj same).2]

/-- A row of a folder is the way up or one of the files in it. -/
theorem mem_fileItems {folder : FilePath} (dir : storage.isDirectory folder = true) {item : FileItem}
    (mem : item ∈ core.fileItems storage folder) :
    (∃ name, folder = name :: item.file ∧ storage.isDirectory item.file = true) ∨
      ∃ name, item.file = name :: folder ∧ storage.tree.node item.file ≠ none ∧
        item.selectable = core.isSelectable storage item.file := by
  rw [fileItems, if_pos dir, List.mem_append, mem_parentItem dir] at mem
  rcases mem with ⟨name, parent, same, above, rfl⟩ | inside
  · exact Or.inl ⟨name, same, above⟩
  · right
    cases listed : storage.listFiles folder with
    | none => simp [folderItems, listed] at inside
    | some names =>
      obtain ⟨name, there, rfl, _⟩ := ((core.folderItems_isListing listed).mem item).mp inside
      exact ⟨name, rfl, there, rfl⟩

theorem fileItems_parent {name : String} {dir : FilePath}
    (there : storage.isDirectory (name :: dir) = true) :
    (⟨dir, "..", true⟩ : FileItem) ∈ core.fileItems storage (name :: dir) := by
  have above := Storage.isDirectory_above (List.suffix_cons name dir) there
  exact List.mem_append_left _ ((mem_parentItem there).mpr ⟨name, dir, rfl, above, rfl⟩)

theorem fileItems_child (readable : storage.Readable) {name : String} {dir : FilePath}
    (there : storage.tree.node (name :: dir) ≠ none)
    (selectable : core.isSelectable storage (name :: dir) = true) :
    (⟨name :: dir, name, true⟩ : FileItem) ∈ core.fileItems storage dir := by
  have inside := Storage.isDirectory_iff.mpr (storage.tree.parent name dir there)
  obtain ⟨names, listed⟩ := readable dir inside
  rw [fileItems, if_pos inside]
  apply List.mem_append_right
  refine ((core.folderItems_isListing listed).mem _).mpr ⟨name, there, ?_, Or.inl rfl⟩
  rw [selectable]

theorem opened_injective {folder folder' : FilePath}
    (same : core.opened storage folder = core.opened storage folder') : folder = folder' :=
  Option.some.inj (congrArg FileChooserCore.currentFolder same)

end Rows

section Touches

variable [Device] (core : FileChooserCore) {storage : Storage}

/-- Either the folder is loaded, or there is none and no row is left. -/
theorem loadFolder_cases (storage : Storage) (folder : Option FilePath) :
    core.loadFolder storage folder = core.opened storage (core.folderFor storage folder) ∧
        storage.fileExists (core.folderFor storage folder) = true ∨
      core.loadFolder storage folder =
          { core with currentFolder := some (core.folderFor storage folder), items := [] } ∧
        ¬storage.fileExists (core.folderFor storage folder) = true := by
  by_cases there : storage.fileExists (core.folderFor storage folder) = true
  · exact Or.inl ⟨if_pos there, there⟩
  · exact Or.inr ⟨if_neg there, there⟩

theorem loadFolder_currentFolder (storage : Storage) (folder : Option FilePath) :
    (core.loadFolder storage folder).currentFolder = some (core.folderFor storage folder) := by
  rcases core.loadFolder_cases storage folder with ⟨loaded, _⟩ | ⟨loaded, _⟩
  · rw [loaded]
    rfl
  · rw [loaded]

theorem loadFolder_of_exists {folder : FilePath} (there : storage.fileExists folder = true) :
    core.loadFolder storage (some folder) = core.opened storage folder := by
  have own : core.folderFor storage (some folder) = folder := by
    simp [folderFor, Option.filter, there]
  rw [loadFolder, own]
  exact if_pos there

/-- Touches one after the other, while nothing else changes the storage. -/
def browse (core : FileChooserCore) (storage : Storage) (touches : List Touch) : FileChooserCore :=
  run (fun core touch => core.touch storage touch) core touches

/-- One touch goes up, down or nowhere. -/
theorem touch_opened {folder : FilePath} (dir : storage.isDirectory folder = true) (touch : Touch) :
    ∃ folder', (core.opened storage folder).touch storage touch = core.opened storage folder' ∧
      storage.isDirectory folder' = true ∧
      (folder' = folder ∨ (∃ name, folder = name :: folder') ∨ ∃ name, folder' = name :: folder) := by
  have stays : ∃ folder', core.opened storage folder = core.opened storage folder' ∧
      storage.isDirectory folder' = true ∧
      (folder' = folder ∨ (∃ name, folder = name :: folder') ∨ ∃ name, folder' = name :: folder) :=
    ⟨folder, rfl, dir, Or.inl rfl⟩
  cases touch with
  | ok => exact stays
  | add name => exact stays
  | item position =>
    simp only [FileChooserCore.touch]
    cases found : (core.opened storage folder).items[position]? with
    | none => exact stays
    | some item =>
      simp only
      split
      next opens =>
        rw [Bool.and_eq_true] at opens
        rw [loadFolder_of_exists _ (Storage.fileExists_of_isDirectory opens.2)]
        refine ⟨item.file, rfl, opens.2, Or.inr ?_⟩
        rcases core.mem_fileItems dir (List.mem_of_getElem? found) with ⟨name, up, _⟩ | ⟨name, down, _⟩
        · exact Or.inl ⟨name, up⟩
        · exact Or.inr ⟨name, down⟩
      next => exact stays

theorem touch_item {folder : FilePath} {item : FileItem}
    (mem : item ∈ core.fileItems storage folder) (selectable : item.selectable = true)
    (dir : storage.isDirectory item.file = true) :
    ∃ touch, (core.opened storage folder).touch storage touch = core.opened storage item.file := by
  obtain ⟨position, found⟩ := List.mem_iff_getElem?.mp mem
  refine ⟨.item position, ?_⟩
  have row : (core.opened storage folder).items[position]? = some item := found
  simp only [touch, row, selectable, dir, Bool.and_self, if_true]
  exact loadFolder_of_exists _ (Storage.fileExists_of_isDirectory dir)

theorem browse_opened {folder : FilePath} (dir : storage.isDirectory folder = true)
    (touches : List Touch) :
    ∃ folder', (core.opened storage folder).browse storage touches = core.opened storage folder' ∧
      storage.isDirectory folder' = true := by
  induction touches generalizing folder with
  | nil => exact ⟨folder, rfl, dir⟩
  | cons touch touches ih =>
    obtain ⟨folder', moved, dir', _⟩ := core.touch_opened dir touch
    obtain ⟨last, arrived, there⟩ := ih dir'
    refine ⟨last, ?_, there⟩
    rw [browse, run_cons, moved]
    exact arrived

theorem browse_up {above folder : FilePath} (dir : storage.isDirectory folder = true)
    (suffix : above <:+ folder) :
    ∃ touches, touches.length + above.length = folder.length ∧
      (core.opened storage folder).browse storage touches = core.opened storage above := by
  induction folder with
  | nil =>
    obtain rfl := List.suffix_nil.mp suffix
    exact ⟨[], rfl, rfl⟩
  | cons name parent ih =>
    rcases List.suffix_cons_iff.mp suffix with rfl | suffix
    · exact ⟨[], by simp, rfl⟩
    · have up := Storage.isDirectory_above (List.suffix_cons name parent) dir
      obtain ⟨touch, moved⟩ := core.touch_item (core.fileItems_parent dir) rfl up
      obtain ⟨touches, length, arrived⟩ := ih up suffix
      refine ⟨touch :: touches, by simp only [List.length_cons]; omega, ?_⟩
      rw [browse, run_cons, moved]
      exact arrived

theorem browse_down (readable : storage.Readable) {above folder : FilePath}
    (dir : storage.isDirectory folder = true) (suffix : above <:+ folder) :
    ∃ touches, touches.length + above.length = folder.length ∧
      (core.opened storage above).browse storage touches = core.opened storage folder := by
  induction folder with
  | nil =>
    obtain rfl := List.suffix_nil.mp suffix
    exact ⟨[], rfl, rfl⟩
  | cons name parent ih =>
    rcases List.suffix_cons_iff.mp suffix with rfl | suffix
    · exact ⟨[], by simp, rfl⟩
    · have up := Storage.isDirectory_above (List.suffix_cons name parent) dir
      obtain ⟨touches, length, arrived⟩ := ih up suffix
      have there : storage.tree.node (name :: parent) ≠ none := by
        rw [Storage.isDirectory_iff.mp dir]
        simp
      have row := core.fileItems_child readable there (by rw [isSelectable, dir, Bool.true_or])
      obtain ⟨touch, moved⟩ := core.touch_item row rfl dir
      refine ⟨touches ++ [touch], by simp only [List.length_append, List.length_cons, List.length_nil]; omega, ?_⟩
      rw [browse] at arrived
      rw [browse, run_concat, arrived]
      exact moved

/-- From one folder to another it takes as many touches as there are folders to leave and to
enter on the way over a common one, and any larger number will do. -/
theorem browse_iff (readable : storage.Readable) {folder target : FilePath}
    (dir : storage.isDirectory folder = true) (dir' : storage.isDirectory target = true) (count : Nat) :
    (∃ touches, touches.length = count ∧
        (core.opened storage folder).browse storage touches = core.opened storage target) ↔
      ∃ above, above <:+ folder ∧ above <:+ target ∧
        folder.length + target.length ≤ count + 2 * above.length := by
  constructor
  · rintro ⟨touches, rfl, arrived⟩
    induction touches generalizing folder with
    | nil =>
      obtain rfl := core.opened_injective arrived
      exact ⟨folder, List.suffix_refl _, List.suffix_refl _, by simp only [List.length_nil]; omega⟩
    | cons touch touches ih =>
      obtain ⟨next, moved, there, way⟩ := core.touch_opened dir touch
      rw [browse, run_cons, moved] at arrived
      obtain ⟨above, suffix, suffix', length⟩ := ih there arrived
      simp only [List.length_cons]
      rcases way with rfl | ⟨name, rfl⟩ | ⟨name, rfl⟩
      · exact ⟨above, suffix, suffix', by omega⟩
      · refine ⟨above, suffix.trans (List.suffix_cons _ _), suffix', ?_⟩
        simp only [List.length_cons]
        omega
      · simp only [List.length_cons] at length
        rcases List.suffix_cons_iff.mp suffix with rfl | suffix
        · refine ⟨folder, List.suffix_refl _, (List.suffix_cons _ _).trans suffix', ?_⟩
          simp only [List.length_cons] at length
          omega
        · exact ⟨above, suffix, suffix', by omega⟩
  · rintro ⟨above, suffix, suffix', length⟩
    obtain ⟨up, upLength, left⟩ := core.browse_up dir suffix
    obtain ⟨down, downLength, entered⟩ := core.browse_down readable dir' suffix'
    -- the touches to spare go to the ok button, which loads nothing
    let spare := List.replicate (count - up.length - down.length) Touch.ok
    have idle : (core.opened storage target).browse storage spare = core.opened storage target := by
      have stays : ∀ spare, (core.opened storage target).browse storage (List.replicate spare Touch.ok) =
          core.opened storage target := by
        intro spare
        induction spare with
        | zero => rfl
        | succ spare ih => exact ih
      exact stays _
    refine ⟨up ++ down ++ spare, ?_, ?_⟩
    · simp only [List.length_append, spare, List.length_replicate]
      omega
    · rw [browse] at left entered idle ⊢
      rw [run_append, run_append, left, entered, idle]

/-- What the chooser leaves to be selected or created: folders in folder mode and else the files
that pass the filter, wherever they are. -/
def Offers (core : FileChooserCore) (storage : Storage) : Notice → Prop
  | .selected file =>
    if core.folderMode then storage.isDirectory file = true
    else (∃ content, storage.tree.node file = some (.file content)) ∧ core.passes (getName file) = true
  | .created folder name =>
    core.canCreateFiles = true ∧ storage.isDirectory folder = true ∧ 0 < name.length

omit [Device] in
theorem file_of_exists {file : FilePath} (there : storage.tree.node file ≠ none)
    (notDir : storage.isDirectory file = false) :
    ∃ content, storage.tree.node file = some (.file content) := by
  cases node : storage.tree.node file with
  | none => exact absurd node there
  | some found =>
    cases found with
    | directory => simp [Storage.isDirectory, node] at notDir
    | file content => exact ⟨content, rfl⟩

omit [Device] in
theorem offers_of_notice {folder : FilePath} (dir : storage.isDirectory folder = true)
    {touch : Touch} {notice : Notice}
    (h : (core.opened storage folder).notice storage touch = some notice) :
    core.Offers storage notice := by
  cases touch with
  | item position =>
    obtain ⟨item, mem, selectable, notDir, rfl⟩ := notice_item h
    rcases core.mem_fileItems dir mem with ⟨_, _, above⟩ | ⟨_, _, there, own⟩
    · simp [above] at notDir
    · rw [own, isSelectable, notDir, Bool.false_or, Bool.and_eq_true, Bool.not_eq_true'] at selectable
      rw [Offers, if_neg (by simp [selectable.1])]
      exact ⟨file_of_exists there notDir, selectable.2⟩
  | ok =>
    obtain ⟨mode, shown, current, rfl⟩ := notice_ok h
    cases Option.some.inj current
    have own : core.folderMode = true := mode
    rw [Offers, if_pos own]
    exact dir
  | add name =>
    obtain ⟨⟨creates, full⟩, shown, current, rfl⟩ := notice_add h
    cases Option.some.inj current
    exact ⟨creates, dir, full⟩

omit [Device] in
theorem notice_of_offers (readable : storage.Readable) {notice : Notice}
    (offers : core.Offers storage notice) :
    ∃ folder touch, storage.isDirectory folder = true ∧
      (core.opened storage folder).notice storage touch = some notice := by
  cases notice with
  | selected file =>
    rw [Offers] at offers
    split at offers
    next mode =>
      have there := offers
      exact ⟨file, .ok, there, if_pos mode⟩
    next mode =>
      obtain ⟨⟨content, isFile⟩, passes⟩ := offers
      cases file with
      | nil => simp [storage.tree.root] at isFile
      | cons name dir =>
        have there : storage.tree.node (name :: dir) ≠ none := by simp [isFile]
        have notDir : storage.isDirectory (name :: dir) = false := by simp [Storage.isDirectory, isFile]
        have selectable : core.isSelectable storage (name :: dir) = true := by
          simp [isSelectable, mode, passes]
        obtain ⟨position, found⟩ :=
          List.mem_iff_getElem?.mp (core.fileItems_child readable there selectable)
        refine ⟨dir, .item position, Storage.isDirectory_iff.mpr (storage.tree.parent name dir there), ?_⟩
        have row : (core.opened storage dir).items[position]? = some ⟨name :: dir, name, true⟩ := found
        simp [FileChooserCore.notice, row, notDir]
  | created folder name =>
    obtain ⟨creates, dir, named⟩ := offers
    refine ⟨folder, .add name, dir, ?_⟩
    have pressed : (core.canCreateFiles && decide (name.length > 0)) = true := by simp [creates, named]
    exact if_pos pressed

/-- What a user can be heard to select or create, by any touches one after the other, is
exactly what the chooser offers. -/
theorem notice_iff_offers (readable : storage.Readable) {folder : FilePath}
    (dir : storage.isDirectory folder = true) (notice : Notice) :
    (∃ touches touch, ((core.opened storage folder).browse storage touches).notice storage touch =
        some notice) ↔ core.Offers storage notice := by
  constructor
  · rintro ⟨touches, touch, h⟩
    obtain ⟨folder', arrived, dir'⟩ := core.browse_opened dir touches
    rw [arrived] at h
    exact core.offers_of_notice dir' h
  · intro offers
    obtain ⟨target, touch, dir', h⟩ := core.notice_of_offers readable offers
    obtain ⟨touches, _, arrived⟩ := (core.browse_iff readable dir dir' (folder.length + target.length)).mpr
      ⟨[], List.nil_suffix, List.nil_suffix, by simp⟩
    exact ⟨touches, touch, by rw [arrived, h]⟩

end Touches

end FileChooserCore

/-- What happens around a chooser: touches, calls of its methods, a new chooser in the same
process, and changes of the storage. -/
inductive ChooserEvent
  | touch (touch : Touch)
  | setFilter (filter : Option Filter)
  | setFolderMode (folderMode : Bool)
  | setCanCreateFiles (canCreate : Bool)
  | setShowOnlySelectable (shown : Bool)
  | loadPath (folderPath : String)
  | reopen (folderPath : String)
  | external (storage : Storage)

structure Chooser where
  core : FileChooserCore
  storage : Storage

namespace Chooser

section Events

variable [Device]

def step (s : Chooser) : ChooserEvent → Chooser
  | .touch touch => { s with core := s.core.touch s.storage touch }
  | .setFilter filter => { s with core := s.core.setFilter s.storage filter }
  | .setFolderMode folderMode => { s with core := s.core.setFolderMode s.storage folderMode }
  | .setCanCreateFiles canCreate => { s with core := s.core.setCanCreateFiles canCreate }
  | .setShowOnlySelectable shown => { s with core := s.core.setShowOnlySelectable s.storage shown }
  | .loadPath folderPath => { s with core := s.core.loadPath s.storage folderPath }
  | .reopen folderPath =>
    { s with core := FileChooserCore.openAt s.storage s.core.defaultFolder folderPath }
  | .external storage => { s with storage }

/-- The rows are those of the current folder under the settings of now. -/
def Shows (core : FileChooserCore) (storage : Storage) : Prop :=
  ∃ folder, core.currentFolder = some folder ∧
    core.items = if storage.fileExists folder then core.fileItems storage folder else []

theorem loadFolder_shows (core : FileChooserCore) (storage : Storage) (folder : Option FilePath) :
    Shows (core.loadFolder storage folder) storage := by
  refine ⟨core.folderFor storage folder, ?_⟩
  rcases core.loadFolder_cases storage folder with ⟨loaded, there⟩ | ⟨loaded, missing⟩
  · rw [loaded, if_pos there]
    exact ⟨rfl, rfl⟩
  · rw [loaded, if_neg missing]
    exact ⟨rfl, rfl⟩

theorem touch_shows (core : FileChooserCore) (storage : Storage) (touch : Touch) :
    core.touch storage touch = core ∨ Shows (core.touch storage touch) storage := by
  cases touch with
  | ok => exact Or.inl rfl
  | add name => exact Or.inl rfl
  | item position =>
    simp only [FileChooserCore.touch]
    cases core.items[position]? with
    | none => exact Or.inl rfl
    | some item =>
      simp only
      split
      next => exact Or.inr (loadFolder_shows _ _ _)
      next => exact Or.inl rfl

/-- The storages the phone has had. -/
def storages (storage : Storage) (events : List ChooserEvent) : List Storage :=
  storage :: events.filterMap fun
    | .external storage => some storage
    | _ => none

def Current (seen : List Storage) (s : Chooser) : Prop :=
  s.storage ∈ seen ∧ ∃ storage ∈ seen, Shows s.core storage

theorem step_current {seen : List Storage} {s : Chooser} (current : Current seen s)
    (event : ChooserEvent) : Current (seen ++ (storages s.storage [event]).tail) (s.step event) := by
  obtain ⟨now, shown, mem, shows⟩ := current
  have loaded {core : FileChooserCore} (shows : Shows core s.storage) :
      Current (seen ++ []) { s with core } := by
    rw [List.append_nil]
    exact ⟨now, s.storage, now, shows⟩
  cases event with
  | touch touch =>
    rcases touch_shows s.core s.storage touch with same | shows'
    · refine ⟨List.mem_append_left _ now, shown, List.mem_append_left _ mem, ?_⟩
      simp only [step, same]
      exact shows
    · exact loaded shows'
  | setFilter filter => exact loaded (loadFolder_shows _ _ _)
  | setFolderMode folderMode => exact loaded (loadFolder_shows _ _ _)
  | setCanCreateFiles canCreate =>
    exact ⟨List.mem_append_left _ now, shown, List.mem_append_left _ mem, shows⟩
  | setShowOnlySelectable only => exact loaded (loadFolder_shows _ _ _)
  | loadPath folderPath => exact loaded (loadFolder_shows _ _ _)
  | reopen folderPath => exact loaded (loadFolder_shows _ _ _)
  | external storage =>
    exact ⟨List.mem_append_right _ (List.mem_singleton_self storage), shown,
      List.mem_append_left _ mem, shows⟩

/-- Whatever is called and touched and however the storage changes, the rows are those of the
current folder under the current settings, as some storage of the run had them. -/
theorem run_shows (storage : Storage) (defaultFolder : Option FilePath) (folderPath : String)
    (events : List ChooserEvent) :
    ∃ shown ∈ storages storage events,
      Shows (run step ⟨FileChooserCore.openAt storage defaultFolder folderPath, storage⟩ events).core
        shown := by
  suffices runs : ∀ {seen : List Storage} {s : Chooser}, Current seen s →
      Current (seen ++ (storages s.storage events).tail) (run step s events) by
    have start : Current [storage] ⟨FileChooserCore.openAt storage defaultFolder folderPath, storage⟩ :=
      ⟨List.mem_singleton_self storage, storage, List.mem_singleton_self storage,
        loadFolder_shows _ _ _⟩
    exact (runs start).2
  induction events with
  | nil =>
    intro seen s current
    rw [storages, List.filterMap_nil, List.tail_cons, List.append_nil]
    exact current
  | cons event events ih =>
    intro seen s current
    have later := ih (step_current current event)
    rw [List.append_assoc] at later
    have split : (storages s.storage [event]).tail ++ (storages (s.step event).storage events).tail =
        (storages s.storage (event :: events)).tail := by
      cases event <;> rfl
    rwa [split] at later

end Events

end Chooser

/-- The extras of the intent that starts the chooser as an activity, as far as they are there. -/
structure ChooserExtras where
  startFolder : Option String
  regexFilter : Option (Option Filter)
  showOnlySelectable : Option Bool
  folderMode : Option Bool
  canCreateFiles : Option Bool
  useBackButton : Option Bool

/-- The chooser as an activity; only its back button is of its own. -/
structure FileChooserActivity where
  core : FileChooserCore
  startFolder : Option FilePath
  useBackButton : Bool

namespace FileChooserActivity

section BackButton

variable [Device]

def configure {α : Type} (core : FileChooserCore) (extra : Option α)
    (set : FileChooserCore → α → FileChooserCore) : FileChooserCore :=
  match extra with
  | some value => set core value
  | none => core

def onCreate (storage : Storage) (defaultFolder : Option FilePath) (extras : ChooserExtras) :
    FileChooserActivity :=
  let core := FileChooserCore.create storage defaultFolder
  let core := configure core extras.regexFilter (·.setFilter storage)
  let core := configure core extras.showOnlySelectable (·.setShowOnlySelectable storage)
  let core := configure core extras.folderMode (·.setFolderMode storage)
  let core := configure core extras.canCreateFiles (·.setCanCreateFiles)
  let core := core.loadPath storage (extras.startFolder.getD "")
  ⟨core, core.currentFolder, extras.useBackButton.getD false⟩

/-- The activity after the back button was pressed, `none` when that has closed it. -/
def onBackPressed (activity : FileChooserActivity) (storage : Storage) : Option FileChooserActivity :=
  match activity.core.currentFolder with
  | none => none
  -- getParent() is null
  | some [] => none
  | some (name :: parent) =>
    if !activity.useBackButton || decide (activity.startFolder = some (name :: parent)) then none
    else some { activity with core := activity.core.loadFolder storage (some parent) }

def backPresses (storage : Storage) : Nat → FileChooserActivity → Option FileChooserActivity
  | 0, activity => some activity
  | count + 1, activity => (activity.onBackPressed storage).bind (backPresses storage count)

/-- From the folder the back button closes the activity or finds a folder to go up to. -/
def Escapes (activity : FileChooserActivity) (storage : Storage) (folder : FilePath) : Prop :=
  activity.startFolder = some folder ∨ storage.fileExists folder.tail = true

def fallback (activity : FileChooserActivity) : FilePath :=
  activity.core.defaultFolder.getD (FilePath.resolve Device.externalStorageDirectory)

variable {activity : FileChooserActivity} {storage : Storage}

omit [Device] in
theorem escapes_of_exists {folder : FilePath} (there : storage.fileExists folder = true) :
    activity.Escapes storage folder := by
  right
  rw [Storage.fileExists_iff] at there ⊢
  cases folder with
  | nil => exact there
  | cons name parent =>
    rw [List.tail_cons, storage.tree.parent name parent there]
    simp

theorem onBackPressed_of_start {folder : FilePath} (current : activity.core.currentFolder = some folder)
    (start : activity.startFolder = some folder) : activity.onBackPressed storage = none := by
  unfold onBackPressed
  rw [current]
  cases folder with
  | nil => rfl
  | cons name parent => simp [start]

theorem onBackPressed_of_parent (storage : Storage) (back : activity.useBackButton = true) {name : String}
    {parent : FilePath} (current : activity.core.currentFolder = some (name :: parent))
    (notStart : activity.startFolder ≠ some (name :: parent)) :
    activity.onBackPressed storage =
      some { activity with core := activity.core.loadFolder storage (some parent) } := by
  unfold onBackPressed
  rw [current]
  simp [back, notStart]

/-- From a folder that exists the way up ends at the start folder or at the root. -/
theorem closes_of_exists (back : activity.useBackButton = true) {folder : FilePath}
    (current : activity.core.currentFolder = some folder) (there : storage.fileExists folder = true) :
    ∃ count, backPresses storage count activity = none := by
  induction folder generalizing activity with
  | nil => exact ⟨1, by simp [backPresses, onBackPressed, current]⟩
  | cons name parent ih =>
    by_cases start : activity.startFolder = some (name :: parent)
    · exact ⟨1, by simp [backPresses, onBackPressed_of_start current start]⟩
    · have up : storage.fileExists parent = true := by
        rw [Storage.fileExists_iff] at there ⊢
        rw [storage.tree.parent name parent there]
        simp
      have next := onBackPressed_of_parent storage back current start
      rw [FileChooserCore.loadFolder_of_exists _ up] at next
      obtain ⟨count, closed⟩ : ∃ count, backPresses storage count
          { activity with core := activity.core.opened storage parent } = none := ih back rfl up
      exact ⟨count + 1, by rw [backPresses, next, Option.bind_some, closed]⟩

omit [Device] in
theorem escapes_root : activity.Escapes storage [] := by
  apply escapes_of_exists
  rw [Storage.fileExists_iff, storage.tree.root]
  simp

theorem folderFor_of_missing {parent : FilePath} (missing : storage.fileExists parent = false) :
    activity.core.folderFor storage (some parent) = activity.fallback := by
  simp [FileChooserCore.folderFor, Option.filter, missing, fallback]

theorem closes_of_escapes (back : activity.useBackButton = true) {folder : FilePath}
    (current : activity.core.currentFolder = some folder) (escapes : activity.Escapes storage folder) :
    ∃ count, backPresses storage count activity = none := by
  by_cases start : activity.startFolder = some folder
  · exact ⟨1, by simp [backPresses, onBackPressed_of_start current start]⟩
  · have up := escapes.resolve_left start
    cases folder with
    | nil => exact closes_of_exists back current up
    | cons name parent =>
      have there : storage.fileExists parent = true := up
      have next := onBackPressed_of_parent storage back current start
      rw [FileChooserCore.loadFolder_of_exists _ there] at next
      obtain ⟨count, closed⟩ : ∃ count, backPresses storage count
          { activity with core := activity.core.opened storage parent } = none :=
        closes_of_exists back rfl there
      exact ⟨count + 1, by rw [backPresses, next, Option.bind_some, closed]⟩

/-- Without a parent and not at its start, the activity shows the fallback after one press. -/
theorem onBackPressed_of_stuck (back : activity.useBackButton = true) {folder : FilePath}
    (current : activity.core.currentFolder = some folder) (stuck : ¬activity.Escapes storage folder) :
    ∃ parent, storage.fileExists parent = false ∧ activity.onBackPressed storage =
      some { activity with core := activity.core.loadFolder storage (some parent) } := by
  cases folder with
  | nil => exact absurd escapes_root stuck
  | cons name parent =>
    refine ⟨parent, ?_, onBackPressed_of_parent storage back current fun start => stuck (Or.inl start)⟩
    by_contra there
    exact stuck (Or.inr (by simpa using there))

/-- Without a way out the fallback is shown again and again. -/
theorem stays_open (back : activity.useBackButton = true) {folder : FilePath}
    (current : activity.core.currentFolder = some folder) (stuck : ¬activity.Escapes storage folder)
    (stuck' : ¬activity.Escapes storage activity.fallback) (count : Nat) :
    backPresses storage count activity ≠ none := by
  have missing : ¬storage.fileExists activity.fallback = true := fun there =>
    stuck' (escapes_of_exists there)
  induction count generalizing activity folder with
  | zero => simp [backPresses]
  | succ count ih =>
    obtain ⟨parent, noParent, next⟩ := onBackPressed_of_stuck back current stuck
    have loaded : activity.core.loadFolder storage (some parent) =
        { activity.core with currentFolder := some activity.fallback, items := [] } := by
      rw [FileChooserCore.loadFolder, folderFor_of_missing noParent]
      exact if_neg missing
    rw [backPresses, next, Option.bind_some, loaded]
    exact ih back rfl stuck' stuck' missing

/-- The back button closes the activity after some presses exactly when the current folder is
the start folder or has a parent that exists, or the folder loaded instead does. -/
theorem closes_iff (back : activity.useBackButton = true) {folder : FilePath}
    (current : activity.core.currentFolder = some folder) :
    (∃ count, backPresses storage count activity = none) ↔
      activity.Escapes storage folder ∨ activity.Escapes storage activity.fallback := by
  constructor
  · rintro ⟨count, closed⟩
    by_contra trapped
    push Not at trapped
    exact stays_open back current trapped.1 trapped.2 count closed
  · intro escapes
    by_cases direct : activity.Escapes storage folder
    · exact closes_of_escapes back current direct
    · obtain ⟨parent, noParent, next⟩ := onBackPressed_of_stuck back current direct
      have shown := activity.core.loadFolder_currentFolder storage (some parent)
      rw [folderFor_of_missing noParent] at shown
      obtain ⟨count, closed⟩ : ∃ count, backPresses storage count
          { activity with core := activity.core.loadFolder storage (some parent) } = none :=
        closes_of_escapes back shown (escapes.resolve_left direct)
      exact ⟨count + 1, by rw [backPresses, next, Option.bind_some, closed]⟩

/-- The states of an activity that is alone in its process. -/
inductive Reached : FileChooserActivity → Storage → Prop
  | create (storage : Storage) (defaultFolder : Option FilePath) (extras : ChooserExtras) :
      Reached (onCreate storage defaultFolder extras) storage
  | touch {activity : FileChooserActivity} {storage : Storage} (before : Reached activity storage)
      (touch : Touch) : Reached { activity with core := activity.core.touch storage touch } storage
  | back {activity after : FileChooserActivity} {storage : Storage} (before : Reached activity storage)
      (pressed : activity.onBackPressed storage = some after) : Reached after storage
  | external {activity : FileChooserActivity} {storage : Storage} (before : Reached activity storage)
      (storage' : Storage) : Reached activity storage'

/-- What is shown is also what a load that fails falls back to. -/
def Anchored (core : FileChooserCore) : Prop :=
  core.currentFolder =
    some (core.defaultFolder.getD (FilePath.resolve Device.externalStorageDirectory))

theorem loadFolder_anchored (core : FileChooserCore) (storage : Storage) (folder : Option FilePath) :
    Anchored (core.loadFolder storage folder) := by
  rcases core.loadFolder_cases storage folder with ⟨loaded, _⟩ | ⟨loaded, missing⟩
  · rw [loaded]
    rfl
  · rw [loaded, Anchored]
    simp only [FileChooserCore.folderFor] at missing ⊢
    cases asked : folder.filter storage.fileExists with
    | none => rfl
    | some found =>
      rw [asked] at missing
      exact absurd (Option.filter_eq_some_iff.mp asked).2 missing

theorem Reached.anchored (reached : Reached activity storage) : Anchored activity.core := by
  induction reached with
  | create storage defaultFolder extras => exact loadFolder_anchored _ _ _
  | @touch activity storage _ touch ih =>
    cases touch with
    | ok => exact ih
    | add name => exact ih
    | item position =>
      simp only [FileChooserCore.touch]
      cases activity.core.items[position]? with
      | none => exact ih
      | some item =>
        simp only
        split
        next => exact loadFolder_anchored _ _ _
        next => exact ih
  | @back activity after storage _ pressed ih =>
    unfold onBackPressed at pressed
    split at pressed
    next => simp at pressed
    next => simp at pressed
    next =>
      split at pressed
      next => simp at pressed
      next =>
        cases Option.some.inj pressed
        exact loadFolder_anchored _ _ _
  | external _ _ ih => exact ih

/-- However the activity was used and the storage changed: the back button gets out of it
exactly when it shows its start folder or a folder whose parent exists. -/
theorem Reached.backPresses_iff (reached : Reached activity storage)
    (back : activity.useBackButton = true) :
    (∃ count, backPresses storage count activity = none) ↔
      ∃ folder, activity.core.currentFolder = some folder ∧
        (activity.startFolder = some folder ∨ storage.fileExists folder.tail = true) := by
  have current := reached.anchored
  rw [closes_iff back current]
  constructor
  · rintro (escapes | escapes)
    · exact ⟨_, current, escapes⟩
    · exact ⟨_, current, escapes⟩
  · rintro ⟨folder, shown, escapes⟩
    rw [current] at shown
    cases Option.some.inj shown
    exact Or.inl escapes

end BackButton

end FileChooserActivity

section Concrete

attribute [local instance] emulator

theorem card_readable : Storage.card.Readable := fun _ _ => ⟨_, rfl⟩

theorem browse_iff_card :
    (∃ touches, touches.length = 2 ∧
        (FileChooserCore.plainCore.opened .card ["cd", "sdcard"]).browse .card touches =
          FileChooserCore.plainCore.opened .card []) ↔
      ∃ above, above <:+ ["cd", "sdcard"] ∧ above <:+ ([] : FilePath) ∧
        ["cd", "sdcard"].length + ([] : FilePath).length ≤ 2 + 2 * above.length :=
  FileChooserCore.browse_iff _ card_readable (by decide +kernel) (by decide +kernel) 2

theorem notice_iff_offers_card :
    (∃ touches touch, ((FileChooserCore.plainCore.opened .card ["sdcard"]).browse .card touches).notice
        .card touch = some (.selected ["XCOM.ISO", "cd", "sdcard"])) ↔
      FileChooserCore.plainCore.Offers .card (.selected ["XCOM.ISO", "cd", "sdcard"]) :=
  FileChooserCore.notice_iff_offers _ card_readable (by decide +kernel) _

def ChooserExtras.backwards : ChooserExtras := ⟨some "/sdcard", none, none, none, none, some true⟩

/-- The activity that was opened in a folder, with its way up gone. -/
def strandedActivity : FileChooserActivity :=
  { FileChooserActivity.onCreate .card none .backwards with
    core := (FileChooserActivity.onCreate .card none .backwards).core.touch .card (.item 1) }

def Storage.bare : Storage := .ofFiles [] (by decide) (by simp)

theorem reached_backPresses_iff_stranded :
    (∃ count, FileChooserActivity.backPresses .bare count strandedActivity = none) ↔
      ∃ folder, strandedActivity.core.currentFolder = some folder ∧
        (strandedActivity.startFolder = some folder ∨ Storage.bare.fileExists folder.tail = true) := by
  have reached : FileChooserActivity.Reached strandedActivity .bare :=
    .external (.touch (.create .card none .backwards) (.item 1)) .bare
  exact reached.backPresses_iff rfl

end Concrete

end OpenApocLauncher
