import OpenApocLauncher.Browsing

namespace OpenApocLauncher

open Machine

namespace ConfigOptionFactory

/-- The options that have a row of their own; for the others the factory answers null. -/
def createOption (option : ConfigOption) : Option ConfigOption :=
  match option with
  | .language | .resLocalCdPath | .resLocalDataDir | .visualRenderers | .visualScaleX
  | .visualScaleY => some option
  | _ => none

end ConfigOptionFactory

def ConfigAdapter.configOptions : List ConfigOption :=
  ConfigOption.values.filterMap ConfigOptionFactory.createOption

def isLineTerminator (c : Char) : Bool := [0x0A, 0x0D, 0x85, 0x2028, 0x2029].contains c.toNat

def isoFilter : Filter where
  text := ".*\\.[iI][sS][oO]"
  pattern := .seq (.star (.one fun c => !isLineTerminator c))
    (.word [(· == '.'), fun c => c == 'i' || c == 'I', fun c => c == 's' || c == 'S',
      fun c => c == 'o' || c == 'O'])

def Filter.blank : Filter := ⟨"", .epsilon⟩

/-- The listeners that `prepareDirDialog` and `prepareIsoDialog` install. -/
inductive DialogListener
  | dir
  | iso
  deriving DecidableEq

/-- `ConfigActivity` with its file dialog, over the storage. -/
structure ConfigScreen where
  core : FileChooserCore
  listener : Option DialogListener
  shown : Bool
  storage : Storage

/-- What the listeners of the dialog do. -/
inductive ScreenAction
  | unpack (dataPath : String)
  | checkIso (isoFilePath : String)
  | mkdirs (path : String)
  deriving DecidableEq

inductive ScreenEvent
  /-- a click on a row of the option list, which the dialog covers while it is shown -/
  | itemClick (position : Nat)
  | touch (touch : Touch)
  | dismiss
  /-- `onCreate` of a new instance, at the value of RES_LOCAL_DATA_DIR -/
  | create (localDataDir : String)
  | external (storage : Storage)

namespace ConfigScreen

section Steps

variable [Device]

def onCreate (storage : Storage) (defaultFolder : Option FilePath) (localDataDir : String) :
    ConfigScreen :=
  ⟨FileChooserCore.openAt storage defaultFolder localDataDir, none, false, storage⟩

def prepareDirDialog (s : ConfigScreen) : ConfigScreen :=
  let core := s.core.setFolderMode s.storage true
  let core := core.setCanCreateFiles true
  let core := core.setFilter s.storage (some Filter.blank)
  let core := core.setShowOnlySelectable s.storage true
  { s with core, listener := some .dir }

def prepareIsoDialog (s : ConfigScreen) : ConfigScreen :=
  let core := s.core.setFolderMode s.storage false
  let core := core.setFilter s.storage (some isoFilter)
  let core := core.setShowOnlySelectable s.storage true
  let core := core.setCanCreateFiles false
  { s with core, listener := some .iso }

def onItemClick (s : ConfigScreen) (position : Nat) : ConfigScreen :=
  match ConfigAdapter.configOptions[position]? with
  | some .resLocalDataDir | some .resSystemDataDir => { s.prepareDirDialog with shown := true }
  | some .resLocalCdPath | some .resSystemCdPath => { s.prepareIsoDialog with shown := true }
  | _ => s

def step (s : ConfigScreen) : ScreenEvent → ConfigScreen
  | .itemClick position => if s.shown then s else s.onItemClick position
  | .touch touch => if s.shown then { s with core := s.core.touch s.storage touch } else s
  | .dismiss => { s with shown := false }
  | .create localDataDir => onCreate s.storage s.core.defaultFolder localDataDir
  | .external storage => { s with storage }

end Steps

def onFileSelected : DialogListener → Notice → Option ScreenAction
  | .dir, .selected file => some (.unpack (FilePath.absolute file))
  | .dir, .created folder name => some (.mkdirs (FilePath.absolute folder ++ "/" ++ name))
  | .iso, .selected file => some (.checkIso (FilePath.absolute file))
  | .iso, .created _ _ => none

def action? (s : ConfigScreen) : ScreenEvent → Option ScreenAction
  | .touch touch =>
    if s.shown then do
      let notice ← s.core.notice s.storage touch
      let listener ← s.listener
      onFileSelected listener notice
    else none
  | _ => none

end ConfigScreen

/-- The names the filter lets through: a last dot and then ISO in any case, before which no
line ends. -/
theorem isoFilter_accepts_iff (name : String) :
    isoFilter.accepts name = true ↔ ∃ base i s o, name.toList = base ++ ['.', i, s, o] ∧
      (∀ c ∈ base, isLineTerminator c = false) ∧ (i = 'i' ∨ i = 'I') ∧ (s = 's' ∨ s = 'S') ∧
        (o = 'o' ∨ o = 'O') := by
  rw [Filter.accepts, Regex.accepts_iff, isoFilter, Regex.matches_seq_iff]
  simp only [Regex.matches_star_one_iff, Regex.matches_word_iff, List.forall₂_cons_left_iff,
    List.forall₂_nil_left_iff, Bool.not_eq_true', beq_iff_eq, Bool.or_eq_true]
  constructor
  · rintro ⟨base, _, split, plain, _, _, rfl, ⟨i, _, hi, ⟨s, _, hs, ⟨o, _, ho, rfl, rfl⟩, rfl⟩, rfl⟩, rfl⟩
    exact ⟨base, i, s, o, split, plain, hi, hs, ho⟩
  · rintro ⟨base, i, s, o, split, plain, hi, hs, ho⟩
    exact ⟨base, _, split, plain, _, _, rfl, ⟨i, _, hi, ⟨s, _, hs, ⟨o, _, ho, rfl, rfl⟩, rfl⟩, rfl⟩, rfl⟩

namespace FileChooserCore

section Browses

variable [Device] {storage : Storage} {core : FileChooserCore}

@[simp] theorem loadFolder_folderMode (folder : Option FilePath) :
    (core.loadFolder storage folder).folderMode = core.folderMode := by
  rcases core.loadFolder_cases storage folder with ⟨loaded, _⟩ | ⟨loaded, _⟩
  · rw [loaded]
    rfl
  · rw [loaded]

@[simp] theorem loadFolder_filter (folder : Option FilePath) :
    (core.loadFolder storage folder).filter = core.filter := by
  rcases core.loadFolder_cases storage folder with ⟨loaded, _⟩ | ⟨loaded, _⟩
  · rw [loaded]
    rfl
  · rw [loaded]

theorem touch_cases (storage : Storage) (touch : Touch) :
    core.touch storage touch = core ∨ ∃ item ∈ core.items, storage.isDirectory item.file = true ∧
      core.touch storage touch = core.loadFolder storage (some item.file) := by
  cases touch with
  | ok => exact Or.inl rfl
  | add name => exact Or.inl rfl
  | item position =>
    simp only [FileChooserCore.touch]
    cases found : core.items[position]? with
    | none => exact Or.inl rfl
    | some item =>
      simp only
      split
      next opens =>
        rw [Bool.and_eq_true] at opens
        exact Or.inr ⟨item, List.mem_of_getElem? found, opens.2, rfl⟩
      next => exact Or.inl rfl

/-- The folders to fall back on are there. -/
structure Grounded (core : FileChooserCore) (storage : Storage) : Prop where
  external : storage.isDirectory (FilePath.resolve Device.externalStorageDirectory) = true
  default : ∀ folder, core.defaultFolder = some folder → storage.isDirectory folder = true

/-- A row of a folder leads to a folder, or is for a file in it that can be selected only if it
passes the filter. -/
def RowOf (core : FileChooserCore) (storage : Storage) (folder : FilePath) (item : FileItem) : Prop :=
  storage.isDirectory item.file = true ∨
    ∃ name, item.file = name :: folder ∧ (∀ name ∈ item.file, FilePath.Plain name) ∧
      (item.selectable = true → core.folderMode = false ∧ core.passes name = true)

structure Browses (core : FileChooserCore) (storage : Storage) : Prop where
  grounded : core.Grounded storage
  current : ∃ folder, core.currentFolder = some folder ∧ storage.isDirectory folder = true ∧
    ∀ item ∈ core.items, core.RowOf storage folder item

omit [Device] in
theorem rowOf_of_mem {folder : FilePath} (dir : storage.isDirectory folder = true) {item : FileItem}
    (mem : item ∈ core.fileItems storage folder) : core.RowOf storage folder item := by
  rcases core.mem_fileItems dir mem with ⟨_, _, above⟩ | ⟨name, own, there, selectable⟩
  · exact Or.inl above
  · by_cases isDir : storage.isDirectory item.file = true
    · exact Or.inl isDir
    · refine Or.inr ⟨name, own, Storage.plain_of_exists there, fun selected => ?_⟩
      rw [Bool.not_eq_true] at isDir
      rw [selected, isSelectable, isDir, own] at selectable
      simpa [getName] using selectable.symm

theorem loadFolder_browses (grounded : core.Grounded storage) {folder : Option FilePath}
    (dir : ∀ file, folder = some file → storage.fileExists file = true →
      storage.isDirectory file = true) : (core.loadFolder storage folder).Browses storage := by
  have own : storage.isDirectory (core.folderFor storage folder) = true := by
    rw [folderFor]
    cases found : folder.filter storage.fileExists with
    | some file =>
      obtain ⟨same, there⟩ := Option.filter_eq_some_iff.mp found
      exact dir file same there
    | none =>
      cases default : core.defaultFolder with
      | none => exact grounded.external
      | some file => exact grounded.default file default
  rcases core.loadFolder_cases storage folder with ⟨loaded, _⟩ | ⟨_, missing⟩
  · rw [loaded]
    refine ⟨⟨grounded.external, ?_⟩, _, rfl, own, fun item mem => rowOf_of_mem own mem⟩
    rintro file same
    cases Option.some.inj same
    exact own
  · exact absurd (Storage.fileExists_of_isDirectory own) missing

/-- Whatever settings are changed on the way, the current folder is loaded again. -/
theorem Browses.reload (browses : core.Browses storage) {changed : FileChooserCore}
    (same : changed.defaultFolder = core.defaultFolder) :
    (changed.loadFolder storage core.currentFolder).Browses storage := by
  obtain ⟨folder, current, dir, _⟩ := browses.current
  apply loadFolder_browses ⟨browses.grounded.external, same ▸ browses.grounded.default⟩
  rintro file shown _
  rw [current] at shown
  cases Option.some.inj shown
  exact dir

theorem Browses.setFolderMode (browses : core.Browses storage) (folderMode : Bool) :
    (core.setFolderMode storage folderMode).Browses storage := browses.reload rfl

theorem Browses.setFilter (browses : core.Browses storage) (filter : Option Filter) :
    (core.setFilter storage filter).Browses storage := browses.reload rfl

theorem Browses.setShowOnlySelectable (browses : core.Browses storage) (shown : Bool) :
    (core.setShowOnlySelectable storage shown).Browses storage := browses.reload rfl

theorem Browses.setCanCreateFiles (browses : core.Browses storage) (canCreate : Bool) :
    (core.setCanCreateFiles canCreate).Browses storage :=
  ⟨⟨browses.grounded.external, browses.grounded.default⟩, browses.current⟩

theorem Browses.touch (browses : core.Browses storage) (touch : Touch) :
    (core.touch storage touch).Browses storage := by
  rcases core.touch_cases storage touch with stays | ⟨item, _, dir, moved⟩
  · rwa [stays]
  · rw [moved]
    apply loadFolder_browses browses.grounded
    rintro file same _
    cases Option.some.inj same
    exact dir

theorem openAt_browses {defaultFolder : Option FilePath}
    (external : storage.isDirectory (FilePath.resolve Device.externalStorageDirectory) = true)
    (default : ∀ folder, defaultFolder = some folder → storage.isDirectory folder = true)
    {folderPath : String} (dir : storage.fileExists (FilePath.resolve folderPath) = true →
      storage.isDirectory (FilePath.resolve folderPath) = true) :
    (openAt storage defaultFolder folderPath).Browses storage := by
  have first : (loadFolder ⟨none, false, false, false, none, [], defaultFolder⟩ storage none).Browses
      storage := loadFolder_browses ⟨external, default⟩ (by simp)
  have grounded : (create storage defaultFolder).Grounded storage :=
    ⟨external, first.grounded.default⟩
  apply loadFolder_browses grounded
  intro file same there
  split at same
  next => simp at same
  next =>
    cases Option.some.inj same
    exact dir there

/-- Folders that appear leave what is shown as it is. -/
theorem Browses.mono (browses : core.Browses storage) {storage' : Storage}
    (kept : ∀ folder, storage.isDirectory folder = true → storage'.isDirectory folder = true) :
    core.Browses storage' := by
  obtain ⟨folder, current, dir, rows⟩ := browses.current
  refine ⟨⟨kept _ browses.grounded.external, fun folder same => kept _ (browses.grounded.default folder same)⟩,
    folder, current, kept _ dir, fun item mem => ?_⟩
  exact (rows item mem).imp (kept _) id

end Browses

end FileChooserCore

namespace ConfigScreen

section Runs

variable [Device]

/-- No folder goes away, and where the data directory exists it is one. -/
def Kept (s : ConfigScreen) : ScreenEvent → Prop
  | .external storage =>
    ∀ folder, s.storage.isDirectory folder = true → storage.isDirectory folder = true
  | .create localDataDir => s.storage.fileExists (FilePath.resolve localDataDir) = true →
      s.storage.isDirectory (FilePath.resolve localDataDir) = true
  | _ => True

/-- The settings are those that the listener was installed with. -/
def Prepared (s : ConfigScreen) : Prop :=
  match s.listener with
  | none => s.shown = false
  | some .dir => s.core.folderMode = true
  | some .iso => s.core.folderMode = false ∧ s.core.filter = some isoFilter

structure Ready (s : ConfigScreen) : Prop where
  browses : s.core.Browses s.storage
  prepared : Prepared s

/-- An action is about the folder that is shown, or something in it. -/
def Proper (s : ConfigScreen) (event : ScreenEvent) : Prop :=
  ∀ action, s.action? event = some action →
    ∃ folder, s.core.currentFolder = some folder ∧ s.storage.isDirectory folder = true ∧
      match action with
      | .unpack dataPath => FilePath.resolve dataPath = folder
      | .checkIso isoFilePath => ∃ name, FilePath.resolve isoFilePath = name :: folder ∧
          s.storage.isDirectory (name :: folder) = false ∧ isoFilter.accepts name = true
      | .mkdirs path => ∃ name, 0 < name.length ∧ FilePath.resolve path = FilePath.resolveFrom folder name

variable {s : ConfigScreen}

theorem prepareDirDialog_ready (browses : s.core.Browses s.storage) (shown : Bool) :
    Ready { s.prepareDirDialog with shown } :=
  ⟨(((browses.setFolderMode true).setCanCreateFiles true).setFilter _).setShowOnlySelectable true, by
    simp [Prepared, prepareDirDialog, FileChooserCore.setShowOnlySelectable, FileChooserCore.setFilter,
      FileChooserCore.setCanCreateFiles, FileChooserCore.setFolderMode]⟩

theorem prepareIsoDialog_ready (browses : s.core.Browses s.storage) (shown : Bool) :
    Ready { s.prepareIsoDialog with shown } := by
  refine ⟨(((browses.setFolderMode false).setFilter _).setShowOnlySelectable true).setCanCreateFiles false, ?_⟩
  have named : isoFilter.text ≠ "" := by decide
  simp [Prepared, prepareIsoDialog, FileChooserCore.setShowOnlySelectable, FileChooserCore.setFilter,
      FileChooserCore.setCanCreateFiles, FileChooserCore.setFolderMode, named]

theorem onItemClick_ready (ready : Ready s) (position : Nat) : Ready (s.onItemClick position) := by
  unfold onItemClick
  split
  next => exact prepareDirDialog_ready ready.browses true
  next => exact prepareDirDialog_ready ready.browses true
  next => exact prepareIsoDialog_ready ready.browses true
  next => exact prepareIsoDialog_ready ready.browses true
  next => exact ready

theorem touch_prepared (prepared : Prepared s) (touch : Touch) :
    Prepared { s with core := s.core.touch s.storage touch } := by
  rcases s.core.touch_cases s.storage touch with stays | ⟨item, _, _, moved⟩
  · rw [stays]
    exact prepared
  · rw [moved]
    unfold Prepared at prepared ⊢
    simpa using prepared

theorem step_ready (event : ScreenEvent) (kept : Kept s event) (ready : Ready s) :
    Ready (s.step event) := by
  cases event with
  | itemClick position =>
    rw [step]
    split
    next => exact ready
    next => exact onItemClick_ready ready position
  | touch touch =>
    rw [step]
    split
    next => exact ⟨ready.browses.touch touch, touch_prepared ready.prepared touch⟩
    next => exact ready
  | dismiss =>
    refine ⟨ready.browses, ?_⟩
    have prepared := ready.prepared
    unfold Prepared at prepared ⊢
    cases listener : s.listener with
    | none => simp [step, listener]
    | some installed => cases installed <;> simpa [step, listener] using prepared
  | create localDataDir =>
    have grounded := ready.browses.grounded
    exact ⟨FileChooserCore.openAt_browses grounded.external grounded.default kept, rfl⟩
  | external storage => exact ⟨ready.browses.mono kept, ready.prepared⟩

omit [Device] in
/-- What is selected by a click is a file in the current folder that passes the filter. -/
theorem selected_of_click {core : FileChooserCore} {storage : Storage} {folder : FilePath}
    (rows : ∀ item ∈ core.items, core.RowOf storage folder item) {position : Nat} {notice : Notice}
    (h : core.notice storage (.item position) = some notice) :
    ∃ name, notice = .selected (name :: folder) ∧ (∀ other ∈ name :: folder, FilePath.Plain other) ∧
      storage.isDirectory (name :: folder) = false ∧ core.folderMode = false ∧
      core.passes name = true := by
  obtain ⟨item, mem, selectable, notDir, rfl⟩ := FileChooserCore.notice_item h
  rcases rows item mem with dir | ⟨name, own, plain, settings⟩
  · simp [dir] at notDir
  · obtain ⟨mode, passes⟩ := settings selectable
    rw [own] at plain notDir ⊢
    exact ⟨name, rfl, plain, notDir, mode, passes⟩

omit [Device] in
/-- An action is what the listener that is installed makes of a touch. -/
theorem action?_cases {event : ScreenEvent} {action : ScreenAction} (h : s.action? event = some action) :
    ∃ touch notice listener, event = .touch touch ∧ s.core.notice s.storage touch = some notice ∧
      s.listener = some listener ∧ onFileSelected listener notice = some action := by
  cases event with
  | touch touch =>
    simp only [action?] at h
    split at h
    next =>
      obtain ⟨notice, told, h⟩ := Option.bind_eq_some_iff.mp h
      obtain ⟨listener, installed, h⟩ := Option.bind_eq_some_iff.mp h
      exact ⟨touch, notice, listener, rfl, told, installed, h⟩
    next => simp at h
  | _ => simp [action?] at h

theorem proper_of_ready (event : ScreenEvent) (ready : Ready s) : Proper s event := by
  obtain ⟨folder, current, dir, rows⟩ := ready.browses.current
  have plain := Storage.plain_of_exists (Storage.fileExists_iff.mp (Storage.fileExists_of_isDirectory dir))
  have prepared := ready.prepared
  intro action h
  refine ⟨folder, current, dir, ?_⟩
  obtain ⟨touch, notice, listener, rfl, told, installed, h⟩ := action?_cases h
  rw [Prepared, installed] at prepared
  cases touch with
  | item position =>
    obtain ⟨name, rfl, plain', notDir, mode, passes⟩ := selected_of_click rows told
    cases listener with
    | dir =>
      rw [mode] at prepared
      exact absurd prepared Bool.false_ne_true
    | iso =>
      cases Option.some.inj h
      refine ⟨name, FilePath.resolve_absolute plain', notDir, ?_⟩
      simpa [FileChooserCore.passes, prepared.2] using passes
  | ok =>
    obtain ⟨mode, shown, own, rfl⟩ := FileChooserCore.notice_ok told
    rw [current] at own
    cases Option.some.inj own
    cases listener with
    | dir =>
      cases Option.some.inj h
      exact FilePath.resolve_absolute plain
    | iso =>
      rw [prepared.1] at mode
      exact absurd mode Bool.false_ne_true
  | add name =>
    obtain ⟨⟨_, full⟩, shown, own, rfl⟩ := FileChooserCore.notice_add told
    rw [current] at own
    cases Option.some.inj own
    cases listener with
    | dir =>
      cases Option.some.inj h
      refine ⟨name, full, ?_⟩
      rw [FilePath.resolve_join, FilePath.resolve_absolute plain]
    | iso => simp [onFileSelected] at h

end Runs

section Concrete

attribute [local instance] emulator

/-- An image is chosen on the card and then the folder it is in. -/
def cardEvents : List ScreenEvent :=
  [.itemClick 2, .touch (.item 1), .touch (.item 1), .dismiss, .itemClick 1, .touch (.add "saves"),
    .touch .ok]

example : (run step (onCreate .card none "/sdcard") (cardEvents.take 2)).action? (.touch (.item 1)) =
    some (.checkIso "/sdcard/cd/XCOM.ISO") := by decide +kernel

example : (run step (onCreate .card none "/sdcard") (cardEvents.take 6)).action? (.touch .ok) =
    some (.unpack "/sdcard/cd") := by decide +kernel

end Concrete

end ConfigScreen

end OpenApocLauncher
