import OpenApocLauncher.ConfigScreen
import OpenApocLauncher.IsoSelection
import OpenApocLauncher.UnpackRoots

namespace OpenApocLauncher

open AssetUnzipper Effects Machine

/-- The launcher, the settings screens on top of it, the one in the foreground first, and the
checks of images they started. `defaultFolder` is the static field of their choosers. -/
structure Phone (dataChecker : DataChecker) where
  launcher : Launcher
  screens : List ConfigScreen
  defaultFolder : Option FilePath
  isoTasks : List (IsoTask dataChecker)

inductive PhoneEvent
  | launcher (event : LauncherEvent)
  /-- `onCreate` of a further ConfigActivity that was started -/
  | openScreen (localDataDir : String) (storage : Storage)
  /-- for the foreground, with the storage it finds and what a `mkdirs` it calls will meet -/
  | screen (event : ScreenEvent) (storage : Storage) (made : Schedule)
  | iso (event : IsoEvent)

/-- A screen that is used again: the storage and the static field may have changed. -/
def ConfigScreen.resumed (s : ConfigScreen) (storage : Storage) (defaultFolder : Option FilePath) :
    ConfigScreen :=
  { s with storage, core := { s.core with defaultFolder } }

def KeepsFolders (tree tree' : FileTree String (List UInt8)) : Prop :=
  ∀ folder, tree.node folder = some .directory → tree'.node folder = some .directory

theorem KeepsFolders.refl (tree : FileTree String (List UInt8)) : KeepsFolders tree tree :=
  fun _ there => there

/-- The path is that of something in a folder that is named as an image. -/
def ImagePath (tree : FileTree String (List UInt8)) (path : String) : Prop :=
  ∃ name folder, FilePath.resolve path = name :: folder ∧ tree.node folder = some .directory ∧
    isoFilter.accepts name = true

theorem ImagePath.mono {tree tree' : FileTree String (List UInt8)} {path : String}
    (image : ImagePath tree path) (kept : KeepsFolders tree tree') : ImagePath tree' path := by
  obtain ⟨name, folder, resolved, there, named⟩ := image
  exact ⟨name, folder, resolved, kept folder there, named⟩

theorem IsoSelection.deliver_tasks {dataChecker : DataChecker} (s : IsoSelection dataChecker) (i : Nat) :
    (s.deliver i).tasks = s.tasks ∨ (s.deliver i).tasks = s.tasks.eraseIdx i := by
  rw [deliver]
  cases s.tasks[i]? with
  | none => exact Or.inl rfl
  | some task =>
    cases cancelled : task.cancelled with
    | true => exact Or.inr (by simp [cancelled])
    | false =>
      cases checked : task.checked with
      | none => exact Or.inl (by simp [cancelled, checked])
      | some verdict => exact Or.inr (by simp [cancelled, checked])

/-- What `doInBackground` of a task is run on: the path the task is for, and what it meets there. -/
def IsoSelection.check? {dataChecker : DataChecker} (s : IsoSelection dataChecker) :
    IsoEvent → Option (String × IsoFile)
  | .check i file => do
    let task ← s.tasks[i]?
    if task.checked.isSome then none else some (task.isoFilePath, file)
  | _ => none

/-- The task is for an image, and its result is that of a check that was seen at its path. -/
structure IsoTask.Grounded {dataChecker : DataChecker} (image : String → Prop)
    (seen : String × IsoFile → Prop) (task : IsoTask dataChecker) : Prop where
  image : image task.isoFilePath
  seen : ∀ checked, task.checked = some checked → seen (task.isoFilePath, checked.file)

section Grounded

variable {dataChecker : DataChecker} {image : String → Prop} {seen : String × IsoFile → Prop}

theorem IsoTask.Grounded.mono {image' : String → Prop} {task : IsoTask dataChecker}
    (grounded : task.Grounded image seen) (weaker : ∀ path, image path → image' path) :
    task.Grounded image' seen :=
  ⟨weaker _ grounded.image, grounded.seen⟩

theorem IsoSelection.modify_grounded {tasks : List (IsoTask dataChecker)}
    {f : IsoTask dataChecker → IsoTask dataChecker} {i : Nat}
    (grounded : ∀ task ∈ tasks, task.Grounded image seen)
    (changed : ∀ task, tasks[i]? = some task → (f task).Grounded image seen) :
    ∀ task ∈ tasks.modify i f, task.Grounded image seen := by
  intro task mem
  obtain ⟨j, found⟩ := List.mem_iff_getElem?.mp mem
  rw [List.getElem?_modify] at found
  obtain ⟨old, there, result⟩ := Option.map_eq_some_iff.mp found
  split at result
  next same =>
    rw [← result]
    exact changed old (same ▸ there)
  next =>
    rw [← result]
    exact grounded old (List.mem_of_getElem? there)

theorem IsoSelection.step_grounded {s : IsoSelection dataChecker} {event : IsoEvent}
    (grounded : ∀ task ∈ s.tasks, task.Grounded image seen)
    (picked : ∀ path, event = .pick path → image path)
    (checked : ∀ check, s.check? event = some check → seen check) :
    ∀ task ∈ (s.step event).tasks, task.Grounded image seen := by
  cases event with
  | pick isoFilePath =>
    intro task mem
    rcases List.mem_append.mp mem with old | new
    · exact grounded task old
    · rw [List.mem_singleton.mp new]
      exact ⟨picked isoFilePath rfl, by simp⟩
  | cancel i =>
    apply modify_grounded grounded
    intro task found
    have own := grounded task (List.mem_of_getElem? found)
    exact ⟨own.image, own.seen⟩
  | check i file =>
    apply modify_grounded grounded
    intro task found
    have own := grounded task (List.mem_of_getElem? found)
    split
    next => exact own
    next unchecked =>
      refine ⟨own.image, ?_⟩
      rintro checked' ⟨⟩
      exact checked _ (by simp [check?, found, unchecked])
  | deliver i =>
    intro task mem
    have left : task ∈ (s.deliver i).tasks := mem
    apply grounded task
    rcases s.deliver_tasks i with same | erased
    · rwa [same] at left
    · rw [erased] at left
      exact List.mem_of_mem_eraseIdx left

/-- What is delivered is the result of a check that was seen, of an image. -/
theorem IsoSelection.delivered_grounded {s : IsoSelection dataChecker} {event : IsoEvent}
    {isoFilePath : String} {file : IsoFile} (grounded : ∀ task ∈ s.tasks, task.Grounded image seen)
    (delivered : s.delivered? event = some (isoFilePath, file)) :
    image isoFilePath ∧ seen (isoFilePath, file) := by
  cases event with
  | deliver i =>
    obtain ⟨task, found, delivered⟩ := Option.bind_eq_some_iff.mp delivered
    obtain ⟨checked, result, delivered⟩ := Option.bind_eq_some_iff.mp delivered
    have own := grounded task (List.mem_of_getElem? found)
    split at delivered
    next => simp at delivered
    next =>
      cases Option.some.inj delivered
      exact ⟨own.image, own.seen checked result⟩
  | _ => simp [delivered?] at delivered

end Grounded

section Device

variable [Device]

theorem Launcher.step_keepsFolders (io : Schedule) {s : Launcher} {event : LauncherEvent}
    (external : ∀ tree, event = .external tree → KeepsFolders s.tree tree) :
    KeepsFolders s.tree (s.step io event).tree := by
  rcases s.step_tree io event with same | ⟨tree, outside, changed⟩ | ⟨task, _, touched⟩
  · rw [same]
    exact .refl _
  · rw [changed]
    exact external tree outside
  · exact fun folder => touched.directory

namespace ConfigScreen

theorem Ready.resumed {s : ConfigScreen} (ready : s.Ready) {storage : Storage}
    (kept : ∀ folder, s.storage.isDirectory folder = true → storage.isDirectory folder = true)
    {defaultFolder : Option FilePath}
    (default : ∀ folder, defaultFolder = some folder → storage.isDirectory folder = true) :
    (s.resumed storage defaultFolder).Ready := by
  have browses := ready.browses.mono kept
  exact ⟨⟨⟨browses.grounded.external, default⟩, browses.current⟩, ready.prepared⟩

theorem step_storage {s : ConfigScreen} {event : ScreenEvent}
    (own : ∀ storage, event ≠ .external storage) : (s.step event).storage = s.storage := by
  cases event with
  | itemClick position =>
    rw [step]
    split
    next => rfl
    next =>
      rw [onItemClick]
      split
      next => rfl
      next => rfl
      next => rfl
      next => rfl
      next => rfl
  | touch touch =>
    rw [step]
    split
    next => rfl
    next => rfl
  | dismiss => rfl
  | create localDataDir => rfl
  | external storage => exact absurd rfl (own storage)

end ConfigScreen

/-- The process ends with the event, by itself or through an uncaught exception. -/
def Launcher.dies (s : Launcher) (event : LauncherEvent) : Bool :=
  match event with
  | .kill | .upgrade _ => true
  | _ =>
    match event.check? with
    | none => false
    | some listed =>
      match (PreloaderActivity.checkSanity (s.view listed)).run ⟨s.mPrefs, []⟩ with
      | .ok _ _ => false
      | .error _ _ => true

namespace Phone

variable {dataChecker : DataChecker}

def launch (io : Schedule) (s : Phone dataChecker) (event : LauncherEvent) : Phone dataChecker :=
  let launcher := s.launcher.step io event
  if s.launcher.dies event then ⟨launcher, [], none, []⟩
  else
    match event with
    | .activityResult requestCode _ =>
      { s with launcher, screens := if requestCode = REQCODE_CONFIG then s.screens.tail else s.screens }
    | _ => { s with launcher }

def selectIso (s : Phone dataChecker) (event : IsoEvent) : Phone dataChecker :=
  let selection := IsoSelection.step ⟨s.launcher.mPrefs, s.isoTasks⟩ event
  { s with launcher := { s.launcher with mPrefs := selection.mPrefs }, isoTasks := selection.tasks }

def madeTree (s : Phone dataChecker) (made : Schedule) (path : String) :
    FileTree String (List UInt8) :=
  (final (Io.mkdirs made (FilePath.resolve path))
    ⟨s.launcher.tree, s.launcher.clock, s.launcher.mPrefs, []⟩).tree

def perform (io made : Schedule) (s : Phone dataChecker) : ScreenAction → Phone dataChecker
  | .unpack dataPath => { s with launcher := s.launcher.step io (.pickDirectory dataPath) }
  | .checkIso isoFilePath => s.selectIso (.pick isoFilePath)
  | .mkdirs path => { s with launcher := { s.launcher with tree := s.madeTree made path } }

def step (io : Schedule) (s : Phone dataChecker) : PhoneEvent → Phone dataChecker
  | .launcher event => s.launch io event
  | .openScreen localDataDir storage =>
    let screen := ConfigScreen.onCreate storage s.defaultFolder localDataDir
    { s with screens := screen :: s.screens, defaultFolder := screen.core.defaultFolder }
  | .screen event storage made =>
    match s.screens with
    | [] => s
    | screen :: below =>
      let before := screen.resumed storage s.defaultFolder
      let after := before.step event
      let s' := { s with screens := after :: below, defaultFolder := after.core.defaultFolder }
      match before.action? event with
      | none => s'
      | some action => s'.perform io made action
  | .iso event => s.selectIso event

/-- What the parts of the phone can meet: picks come from the screens, a screen was started
before it is opened, and what it reads is what is there. -/
def Possible (s : Phone dataChecker) : PhoneEvent → Prop
  | .launcher event => (∀ path, event ≠ .pickDirectory path) ∧ ∀ path, event ≠ .selectIso path
  | .openScreen localDataDir storage =>
    s.screens.length < s.launcher.configs ∧ storage.tree = s.launcher.tree ∧
      Config.getOption s.launcher.mPrefs .resLocalDataDir = .ok localDataDir
  | .screen event storage _ =>
    storage.tree = s.launcher.tree ∧ (∀ other, event ≠ .external other) ∧
      ∀ localDataDir, event = .create localDataDir →
        Config.getOption s.launcher.mPrefs .resLocalDataDir = .ok localDataDir
  | .iso event => ∀ path, event ≠ .pick path

/-- Nobody else removes a folder, and where the data directory exists it is one. -/
def Calm (s : Phone dataChecker) : PhoneEvent → Prop
  | .launcher (.external tree) => KeepsFolders s.launcher.tree tree
  | .openScreen localDataDir storage | .screen (.create localDataDir) storage _ =>
    storage.fileExists (FilePath.resolve localDataDir) = true →
      storage.isDirectory (FilePath.resolve localDataDir) = true
  | _ => True

def check? (s : Phone dataChecker) : PhoneEvent → Option (String × IsoFile)
  | .iso event => IsoSelection.check? ⟨s.launcher.mPrefs, s.isoTasks⟩ event
  | _ => none

/-- The event of the launcher that an event of the phone amounts to. -/
def launcherEvent? (s : Phone dataChecker) : PhoneEvent → Option LauncherEvent
  | .launcher event => some event
  | .openScreen _ _ => none
  | .screen event storage made =>
    match s.screens with
    | [] => none
    | screen :: _ =>
      match (screen.resumed storage s.defaultFolder).action? event with
      | some (.unpack dataPath) => some (.pickDirectory dataPath)
      | some (.mkdirs path) => some (.external (s.madeTree made path))
      | _ => none
  | .iso event =>
    match IsoSelection.delivered? ⟨s.launcher.mPrefs, s.isoTasks⟩ event with
    | some (isoFilePath, file) =>
      if (IsoCheckerTask.doInBackground dataChecker file).valid then some (.selectIso isoFilePath) else none
    | none => none

theorem selectIso_launcher (io : Schedule) (s : Phone dataChecker) (event : IsoEvent) :
    (s.selectIso event).launcher =
      run (Launcher.step io) s.launcher (s.launcherEvent? (.iso event)).toList := by
  simp only [selectIso, launcherEvent?]
  cases delivered : IsoSelection.delivered? ⟨s.launcher.mPrefs, s.isoTasks⟩ event with
  | none =>
    rw [IsoSelection.mPrefs_of_not_delivered delivered]
    rfl
  | some result =>
    obtain ⟨isoFilePath, file⟩ := result
    rw [IsoSelection.mPrefs_of_delivered delivered]
    cases valid : (IsoCheckerTask.doInBackground dataChecker file).valid with
    | true => simp [valid, IsoSelection.onPostExecute, Launcher.step]
    | false => simp [valid, IsoSelection.onPostExecute]

/-- Seen from the launcher, a step of the phone is a step of it or none. -/
theorem step_launcher (io : Schedule) (s : Phone dataChecker) (event : PhoneEvent) :
    (s.step io event).launcher = run (Launcher.step io) s.launcher (s.launcherEvent? event).toList := by
  cases event with
  | launcher event =>
    simp only [step, launch, launcherEvent?]
    split
    next => rfl
    next => cases event <;> rfl
  | openScreen localDataDir storage => rfl
  | screen event storage made =>
    simp only [step, launcherEvent?]
    cases s.screens with
    | nil => rfl
    | cons screen below =>
      simp only
      cases (screen.resumed storage s.defaultFolder).action? event with
      | none => rfl
      | some action =>
        cases action with
        | unpack dataPath => rfl
        | checkIso isoFilePath => rfl
        | mkdirs path => rfl
  | iso event => exact selectIso_launcher io s event

omit [Device] in
/-- A launcher event comes as it is, from an action on the foreground screen, or from a check that
is delivered. -/
theorem launcherEvent?_cases {s : Phone dataChecker} {event : PhoneEvent} {launched : LauncherEvent}
    (emitted : s.launcherEvent? event = some launched) :
    event = .launcher launched ∨
      (∃ input storage made, event = .screen input storage made ∧ ∃ screen ∈ s.screens,
        let action := (screen.resumed storage s.defaultFolder).action? input
        (∃ dataPath, action = some (.unpack dataPath) ∧ launched = .pickDirectory dataPath) ∨
          ∃ path, action = some (.mkdirs path) ∧ launched = .external (s.madeTree made path)) ∨
      ∃ isoEvent isoFilePath file, event = .iso isoEvent ∧
        IsoSelection.delivered? ⟨s.launcher.mPrefs, s.isoTasks⟩ isoEvent = some (isoFilePath, file) ∧
        (IsoCheckerTask.doInBackground dataChecker file).valid = true ∧ launched = .selectIso isoFilePath := by
  cases event with
  | launcher event =>
    cases Option.some.inj emitted
    exact Or.inl rfl
  | openScreen localDataDir storage => simp [launcherEvent?] at emitted
  | screen input storage made =>
    simp only [launcherEvent?] at emitted
    split at emitted
    next => simp at emitted
    next screen below screens =>
      refine Or.inr (Or.inl ⟨input, storage, made, rfl, screen, by simp [screens], ?_⟩)
      split at emitted
      next dataPath done =>
        cases Option.some.inj emitted
        exact Or.inl ⟨dataPath, done, rfl⟩
      next path done =>
        cases Option.some.inj emitted
        exact Or.inr ⟨path, done, rfl⟩
      next => simp at emitted
  | iso isoEvent =>
    simp only [launcherEvent?] at emitted
    split at emitted
    next isoFilePath file delivered =>
      split at emitted
      next valid =>
        cases Option.some.inj emitted
        exact Or.inr (Or.inr ⟨isoEvent, isoFilePath, file, rfl, delivered, valid, rfl⟩)
      next => simp at emitted
    next => simp at emitted

/-- The folders that the screens rely on are there, and what is checked is named as an image. -/
structure Sound (seen : String × IsoFile → Prop) (s : Phone dataChecker) : Prop where
  external : s.launcher.tree.node (FilePath.resolve Device.externalStorageDirectory) = some .directory
  default : ∀ folder, s.defaultFolder = some folder → s.launcher.tree.node folder = some .directory
  screens : ∀ screen ∈ s.screens, screen.Ready ∧
    ∀ folder, screen.storage.isDirectory folder = true → s.launcher.tree.node folder = some .directory
  isoTasks : ∀ task ∈ s.isoTasks, task.Grounded (ImagePath s.launcher.tree) seen

variable {seen : String × IsoFile → Prop} {s : Phone dataChecker}

omit [Device] in
theorem madeTree_keepsFolders (made : Schedule) (path : String) :
    KeepsFolders s.launcher.tree (s.madeTree made path) := by
  intro folder there
  rcases (mkdirs_makes made (FilePath.resolve path) _).added folder with same | ⟨absent, _⟩
  · exact same.trans there
  · simp [there] at absent

namespace Sound

theorem grow (h : Sound seen s) {launcher : Launcher} (kept : KeepsFolders s.launcher.tree launcher.tree) :
    Sound seen { s with launcher } :=
  ⟨kept _ h.external, fun folder own => kept folder (h.default folder own),
    fun screen mem => ⟨(h.screens screen mem).1, fun folder dir => kept folder ((h.screens screen mem).2 folder dir)⟩,
    fun task mem => (h.isoTasks task mem).mono fun _ image => image.mono kept⟩

theorem launch (h : Sound seen s) (io : Schedule) {event : LauncherEvent}
    (external : ∀ tree, event = .external tree → KeepsFolders s.launcher.tree tree) :
    Sound seen (s.launch io event) := by
  have kept := Launcher.step_keepsFolders io external
  have grown := h.grow kept
  unfold Phone.launch
  simp only
  split
  next => exact ⟨grown.external, by simp, by simp, by simp⟩
  next =>
    cases event with
    | activityResult requestCode listed =>
      refine ⟨grown.external, grown.default, fun screen mem => grown.screens screen ?_, grown.isoTasks⟩
      simp only at mem
      split at mem
      next => exact List.mem_of_mem_tail mem
      next => exact mem
    | _ => exact grown

theorem selectIso (h : Sound seen s) {event : IsoEvent}
    (picked : ∀ path, event = .pick path → ImagePath s.launcher.tree path)
    (checked : ∀ check, s.check? (.iso event) = some check → seen check) :
    Sound seen (s.selectIso event) :=
  ⟨h.external, h.default, h.screens, IsoSelection.step_grounded h.isoTasks picked checked⟩

/-- The foreground screen is ready for the storage as it is. -/
theorem resumed (h : Sound seen s) {screen : ConfigScreen} (mem : screen ∈ s.screens) {storage : Storage}
    (current : storage.tree = s.launcher.tree) : (screen.resumed storage s.defaultFolder).Ready := by
  obtain ⟨ready, kept⟩ := h.screens screen mem
  apply ready.resumed
  · intro folder dir
    rw [Storage.isDirectory_iff, current]
    exact kept folder dir
  · intro folder own
    rw [Storage.isDirectory_iff, current]
    exact h.default folder own

theorem openScreen (h : Sound seen s) {storage : Storage} (current : storage.tree = s.launcher.tree)
    {localDataDir : String} (dir : storage.fileExists (FilePath.resolve localDataDir) = true →
      storage.isDirectory (FilePath.resolve localDataDir) = true) :
    (ConfigScreen.onCreate storage s.defaultFolder localDataDir).Ready := by
  refine ⟨FileChooserCore.openAt_browses ?_ ?_ dir, rfl⟩
  · rw [Storage.isDirectory_iff, current]
    exact h.external
  · intro folder own
    rw [Storage.isDirectory_iff, current]
    exact h.default folder own

theorem perform (h : Sound seen s) (io made : Schedule) {action : ScreenAction}
    (image : ∀ path, action = .checkIso path → ImagePath s.launcher.tree path) :
    Sound seen (s.perform io made action) := by
  cases action with
  | unpack dataPath => exact h.grow (.refl _)
  | checkIso isoFilePath =>
    refine h.selectIso ?_ fun check started => by simp [check?, IsoSelection.check?] at started
    rintro path ⟨⟩
    exact image isoFilePath rfl
  | mkdirs path => exact h.grow (madeTree_keepsFolders made path)

/-- What the foreground is about to do is about the folder it shows. -/
theorem proper (h : Sound seen s) {screen : ConfigScreen} (mem : screen ∈ s.screens) {storage : Storage}
    (current : storage.tree = s.launcher.tree) (event : ScreenEvent) :
    (screen.resumed storage s.defaultFolder).Proper event :=
  ConfigScreen.proper_of_ready event (h.resumed mem current)

theorem imagePath (h : Sound seen s) {screen : ConfigScreen} (mem : screen ∈ s.screens) {storage : Storage}
    (current : storage.tree = s.launcher.tree) {event : ScreenEvent} {path : String}
    (action : (screen.resumed storage s.defaultFolder).action? event = some (.checkIso path)) :
    ImagePath s.launcher.tree path := by
  obtain ⟨folder, _, dir, name, resolved, _, named⟩ := h.proper mem current event _ action
  refine ⟨name, folder, resolved, ?_, named⟩
  rw [← current]
  exact Storage.isDirectory_iff.mp dir

theorem opened (h : Sound seen s) {storage : Storage} (current : storage.tree = s.launcher.tree)
    {screen : ConfigScreen} (ready : screen.Ready) (own : screen.storage = storage)
    {below : List ConfigScreen} (sub : ∀ other ∈ below, other ∈ s.screens) :
    Sound seen { s with screens := screen :: below, defaultFolder := screen.core.defaultFolder } := by
  have kept : ∀ folder, screen.storage.isDirectory folder = true →
      s.launcher.tree.node folder = some .directory := by
    intro folder dir
    rw [own] at dir
    rw [← current]
    exact Storage.isDirectory_iff.mp dir
  refine ⟨h.external, fun folder static => kept folder (ready.browses.grounded.default folder static), ?_,
    h.isoTasks⟩
  intro other mem
  rcases List.mem_cons.mp mem with rfl | under
  · exact ⟨ready, kept⟩
  · exact h.screens other (sub other under)

theorem screen (h : Sound seen s) (io : Schedule) {event : ScreenEvent} {storage : Storage} {made : Schedule}
    (possible : s.Possible (.screen event storage made)) (calm : s.Calm (.screen event storage made)) :
    Sound seen (s.step io (.screen event storage made)) := by
  obtain ⟨current, own, _⟩ := possible
  simp only [Phone.step]
  split
  next => exact h
  next screen below screens =>
    have mem : screen ∈ s.screens := by simp [screens]
    have calm' : ConfigScreen.Kept (screen.resumed storage s.defaultFolder) event := by
      cases event with
      | create localDataDir => exact calm
      | external other => exact absurd rfl (own other)
      | _ => trivial
    have ready := ConfigScreen.step_ready event calm' (h.resumed mem current)
    have under : ∀ other ∈ below, other ∈ s.screens := fun other mem => by simp [screens, mem]
    have stepped := h.opened current ready (ConfigScreen.step_storage own) under
    split
    next => exact stepped
    next action done =>
      apply stepped.perform
      rintro path rfl
      exact h.imagePath mem current done

theorem step (h : Sound seen s) (io : Schedule) {event : PhoneEvent} (possible : s.Possible event)
    (calm : s.Calm event) (checked : ∀ check, s.check? event = some check → seen check) :
    Sound seen (s.step io event) := by
  cases event with
  | launcher event =>
    apply h.launch
    rintro tree rfl
    exact calm
  | openScreen localDataDir storage =>
    exact h.opened possible.2.1 (h.openScreen possible.2.1 calm) rfl fun other mem => mem
  | screen event storage made => exact h.screen io possible calm
  | iso event => exact h.selectIso (fun path same => absurd same (possible path)) checked

end Sound

/-- A check that was seen at the path of the image found it to be known. -/
def KnownImage (dataChecker : DataChecker) (seen : String × IsoFile → Prop)
    (tree : FileTree String (List UInt8)) (path : String) : Prop :=
  ImagePath tree path ∧
    ∃ file, seen (path, file) ∧ (IsoCheckerTask.doInBackground dataChecker file).valid = true

/-- What the screens pass on is there. -/
def Chosen (dataChecker : DataChecker) (seen : String × IsoFile → Prop)
    (tree : FileTree String (List UInt8)) : LauncherEvent → Prop
  | .pickDirectory path => tree.node (FilePath.resolve path) = some .directory
  | .selectIso path => KnownImage dataChecker seen tree path
  | .external tree' => KeepsFolders tree tree'
  | _ => True

theorem Sound.chosen (h : Sound seen s) {event : PhoneEvent} (possible : s.Possible event)
    (calm : s.Calm event) {launched : LauncherEvent} (emitted : s.launcherEvent? event = some launched) :
    Chosen dataChecker seen s.launcher.tree launched := by
  rcases launcherEvent?_cases emitted with rfl |
    ⟨input, storage, made, rfl, screen, mem, ⟨dataPath, done, rfl⟩ | ⟨path, done, rfl⟩⟩ |
    ⟨isoEvent, isoFilePath, file, rfl, delivered, valid, rfl⟩
  · cases launched with
    | pickDirectory path => exact absurd rfl (possible.1 path)
    | selectIso path => exact absurd rfl (possible.2 path)
    | external tree => exact calm
    | _ => trivial
  · obtain ⟨folder, _, dir, resolved⟩ := h.proper mem possible.1 input _ done
    have there : storage.tree.node folder = some .directory := Storage.isDirectory_iff.mp dir
    rwa [Chosen, resolved, ← possible.1]
  · exact madeTree_keepsFolders made path
  · obtain ⟨image, checked⟩ := IsoSelection.delivered_grounded h.isoTasks delivered
    exact ⟨image, file, checked, valid⟩

theorem step_keepsFolders (io : Schedule) (h : Sound seen s) {event : PhoneEvent}
    (possible : s.Possible event) (calm : s.Calm event) :
    KeepsFolders s.launcher.tree (s.step io event).launcher.tree := by
  rw [s.step_launcher io event]
  cases emitted : s.launcherEvent? event with
  | none => exact .refl _
  | some launched =>
    apply Launcher.step_keepsFolders io
    rintro tree rfl
    exact h.chosen possible calm emitted

/-- What the screens have passed on in a run. -/
def launched (io : Schedule) (s : Phone dataChecker) (events : List PhoneEvent) : List LauncherEvent :=
  emitted (step io) launcherEvent? s events

/-- The checks that were carried out in a run, with the paths they were for. -/
def checks (io : Schedule) (s : Phone dataChecker) (events : List PhoneEvent) :
    List (String × IsoFile) :=
  emitted (step io) check? s events

def Ordinary (s : Phone dataChecker) (event : PhoneEvent) : Prop := s.Possible event ∧ s.Calm event

theorem run_launcher (io : Schedule) (s : Phone dataChecker) (events : List PhoneEvent) :
    (run (step io) s events).launcher = run (Launcher.step io) s.launcher (launched io s events) :=
  run_emitted Phone.launcher (step_launcher io) s events

theorem checks_cons (io : Schedule) (s : Phone dataChecker) (event : PhoneEvent)
    (events : List PhoneEvent) :
    checks io s (event :: events) = (s.check? event).toList ++ checks io (s.step io event) events :=
  rfl

theorem Sound.head (io : Schedule) (h : Sound seen s) {event : PhoneEvent} {events : List PhoneEvent}
    (ordinary : Ordinary s event) (covered : ∀ check ∈ checks io s (event :: events), seen check) :
    Sound seen (s.step io event) ∧ ∀ check ∈ checks io (s.step io event) events, seen check := by
  rw [checks_cons] at covered
  refine ⟨h.step io ordinary.1 ordinary.2 fun check own => covered check ?_, fun check later => ?_⟩
  · exact List.mem_append_left _ (Option.mem_toList.mpr own)
  · exact covered check (List.mem_append_right _ later)

theorem run_keepsFolders (io : Schedule) (h : Sound seen s) {events : List PhoneEvent}
    (ordinary : Guarded (step io) Ordinary s events)
    (covered : ∀ check ∈ checks io s events, seen check) :
    KeepsFolders s.launcher.tree (run (step io) s events).launcher.tree := by
  induction events generalizing s with
  | nil => exact .refl _
  | cons event events ih =>
    obtain ⟨own, rest⟩ := ordinary
    obtain ⟨next, later⟩ := h.head io own covered
    intro folder there
    exact ih next rest later folder (step_keepsFolders io h own.1 own.2 folder there)

/-- The directories and images that were chosen in a run are there at its end. -/
theorem chosen_stay (io : Schedule) (h : Sound seen s) {events : List PhoneEvent}
    (ordinary : Guarded (step io) Ordinary s events)
    (covered : ∀ check ∈ checks io s events, seen check) :
    let tree := (run (step io) s events).launcher.tree
    (∀ path ∈ pickedDirs (launched io s events), tree.node (FilePath.resolve path) = some .directory) ∧
      ∀ path ∈ selectedIsos (launched io s events), KnownImage dataChecker seen tree path := by
  induction events generalizing s with
  | nil => simp [launched, emitted, pickedDirs, selectedIsos]
  | cons event events ih =>
    have kept := run_keepsFolders io h ordinary covered
    obtain ⟨⟨possible, calm⟩, rest⟩ := ordinary
    obtain ⟨next, later⟩ := h.head io ⟨possible, calm⟩ covered
    obtain ⟨dirs, isos⟩ := ih next rest later
    have split : launched io s (event :: events) =
        (s.launcherEvent? event).toList ++ launched io (s.step io event) events := rfl
    constructor
    · intro path mem
      rw [mem_pickedDirs, split, List.mem_append, Option.mem_toList] at mem
      rcases mem with own | later
      · exact kept _ (h.chosen possible calm own)
      · exact dirs path (mem_pickedDirs.mpr later)
    · intro path mem
      rw [mem_selectedIsos, split, List.mem_append, Option.mem_toList] at mem
      rcases mem with own | later
      · obtain ⟨image, known⟩ := h.chosen possible calm own
        exact ⟨image.mono kept, known⟩
      · exact isos path (mem_selectedIsos.mpr later)

/-- The phone before the launcher is used. -/
structure Fresh (s : Phone dataChecker) : Prop where
  idle : s.launcher.queue = [] ∧ s.launcher.posted = []
  screens : s.screens = [] ∧ s.defaultFolder = none ∧ s.isoTasks = []
  external : s.launcher.tree.node (FilePath.resolve Device.externalStorageDirectory) = some .directory

theorem Fresh.sound (fresh : Fresh s) : Sound seen s := by
  obtain ⟨screens, default, isoTasks⟩ := fresh.screens
  exact ⟨fresh.external, by simp [default], by simp [screens], by simp [isoTasks]⟩

/-- The tree is as before or changed from outside, only folders on the way to a name that was
entered in a folder were made, or the changes are in a root of the unpacking. -/
def ChangesChosen (s : Phone dataChecker) (io : Schedule) (start : Launcher) (picked : List String)
    (event : PhoneEvent) : Prop :=
  let tree' := (s.step io event).launcher.tree
  tree' = s.launcher.tree ∨ (∃ tree, event = .launcher (.external tree)) ∨
    (∃ folder name, s.launcher.tree.node folder = some .directory ∧
      ∀ place, tree'.node place = s.launcher.tree.node place ∨
        s.launcher.tree.node place = none ∧ tree'.node place = some .directory ∧
          place <:+ FilePath.resolveFrom folder name) ∨
    ∃ root, start.UnpackRoot picked root ∧ StaysInside root s.launcher.tree tree'

/-- What reaches the launcher from outside was changed from outside, or made for the screen. -/
theorem Sound.made (h : Sound seen s) {event : PhoneEvent} (possible : s.Possible event)
    {tree : FileTree String (List UInt8)} (emitted : s.launcherEvent? event = some (.external tree)) :
    event = .launcher (.external tree) ∨
      ∃ folder name, s.launcher.tree.node folder = some .directory ∧
        ∀ place, tree.node place = s.launcher.tree.node place ∨
          s.launcher.tree.node place = none ∧ tree.node place = some .directory ∧
            place <:+ FilePath.resolveFrom folder name := by
  rcases launcherEvent?_cases emitted with rfl |
    ⟨input, storage, made, rfl, screen, mem, ⟨dataPath, done, pick⟩ | ⟨path, done, outside⟩⟩ |
    ⟨isoEvent, isoFilePath, file, rfl, delivered, valid, selected⟩
  · exact Or.inl rfl
  · simp at pick
  · cases outside
    obtain ⟨folder, _, dir, name, _, resolved⟩ := h.proper mem possible.1 input _ done
    have there : storage.tree.node folder = some .directory := Storage.isDirectory_iff.mp dir
    refine Or.inr ⟨folder, name, possible.1 ▸ there, ?_⟩
    rw [← resolved]
    exact (mkdirs_makes made (FilePath.resolve path) _).added
  · simp at selected

theorem Sound.changesChosen (h : Sound seen s) (io : Schedule) {start : Launcher} {picked : List String}
    {event : PhoneEvent} (possible : s.Possible event)
    (roots : ∀ launched, s.launcherEvent? event = some launched →
      s.launcher.ChangesRoot io start picked launched) : s.ChangesChosen io start picked event := by
  have simulated := s.step_launcher io event
  cases emitted : s.launcherEvent? event with
  | none =>
    rw [emitted] at simulated
    exact Or.inl (congrArg Launcher.tree simulated)
  | some launched =>
    rw [emitted] at simulated
    have tree : (s.step io event).launcher.tree = (s.launcher.step io launched).tree :=
      congrArg Launcher.tree simulated
    rw [ChangesChosen, tree]
    rcases roots launched emitted with same | ⟨other, rfl⟩ | root
    · exact Or.inl same
    · rcases h.made possible emitted with outside | made
      · exact Or.inr (Or.inl ⟨other, outside⟩)
      · exact Or.inr (Or.inr (Or.inl made))
    · exact Or.inr (Or.inr (Or.inr root))

theorem upgrade_of_launched {io : Schedule} {events : List PhoneEvent} {assets : Bundle}
    (mem : .upgrade assets ∈ launched io s events) : .launcher (.upgrade assets) ∈ events := by
  obtain ⟨s', event, inside, emitted⟩ := mem_emitted mem
  rcases launcherEvent?_cases emitted with rfl |
    ⟨_, _, _, _, _, _, ⟨_, _, pick⟩ | ⟨_, _, outside⟩⟩ | ⟨_, _, _, _, _, _, selected⟩
  · exact inside
  · simp at pick
  · simp at outside
  · simp at selected

end Phone

end Device

namespace Phone

section Concrete

attribute [local instance] emulator

theorem abc_canonical :
    ∀ hash ∈ ({"900150983cd24fb0d6963f7d28e17f72"} : Finset String), Radix.IsHex 32 hash := by
  decide +kernel

def abc : DataChecker := ⟨{"900150983cd24fb0d6963f7d28e17f72"}, abc_canonical⟩

/-- The first start, over a card with an image. -/
def firstStart : Phone abc :=
  ⟨{ Launcher.installed (.release [1] none) with tree := Storage.card.tree }, [], none, []⟩

/-- An image is chosen and checked, then the folder it is in, and a folder is made there. -/
def firstSession : List PhoneEvent :=
  let file : IsoFile := .complete 3 [0x61, 0x62, 0x63] ⟨[[0x61, 0x62, 0x63]], by decide, by decide⟩
  let input (event : ScreenEvent) : PhoneEvent := .screen event .card .quiet
  [.launcher (.create true), .openScreen "/sdcard/OpenApoc/data" .card, input (.itemClick 2),
    input (.touch (.item 1)), input (.touch (.item 1)), .iso (.check 0 file), .iso (.deliver 0),
    input .dismiss, input (.itemClick 1), input (.touch .ok), input (.touch (.add "saves"))] ++
    List.replicate 6 (.launcher .background) ++ [.launcher .post]

set_option maxRecDepth 4000 in
theorem ordinary_firstSession : Guarded (step .quiet) Ordinary firstStart firstSession := by
  refine ⟨⟨?_, trivial⟩, ⟨?_, ?_⟩, ⟨?_, trivial⟩, ⟨?_, trivial⟩, ⟨?_, trivial⟩, ⟨?_, trivial⟩, ⟨?_, trivial⟩,
    ⟨?_, trivial⟩, ⟨?_, trivial⟩, ⟨?_, trivial⟩, ⟨?_, trivial⟩, ?_⟩
  · exact ⟨by simp, by simp⟩
  · exact ⟨by decide +kernel, rfl, by decide +kernel⟩
  · change Storage.card.fileExists (FilePath.resolve "/sdcard/OpenApoc/data") = true → _
    decide +kernel
  · exact ⟨rfl, by simp, by simp⟩
  · exact ⟨by rfl, by simp, by simp⟩
  · exact ⟨by rfl, by simp, by simp⟩
  · exact fun path => by simp
  · exact fun path => by simp
  · exact ⟨by rfl, by simp, by simp⟩
  · exact ⟨by rfl, by simp, by simp⟩
  · exact ⟨by rfl, by simp, by simp⟩
  · exact ⟨by rfl, by simp, by simp⟩
  · apply guarded_of_invariant fun _ => True
    · exact fun _ _ _ _ => trivial
    · trivial
    · intro s event mem _
      have last : event = .launcher .background ∨ event = .launcher .post := by simpa using mem
      rcases last with rfl | rfl
      · exact ⟨⟨by simp, by simp⟩, trivial⟩
      · exact ⟨⟨by simp, by simp⟩, trivial⟩

theorem fresh_firstStart : Fresh firstStart := by
  refine ⟨⟨rfl, rfl⟩, ⟨rfl, rfl, rfl⟩, ?_⟩
  change Storage.card.tree.node _ = _
  decide +kernel

/-- The session ends with both paths stored. -/
example :
    let mPrefs := (run (step .quiet) firstStart firstSession).launcher.mPrefs
    Config.getOption mPrefs .resLocalCdPath = .ok "/sdcard/cd/XCOM.ISO" ∧
      Config.getOption mPrefs .resLocalDataDir = .ok "/sdcard/cd/data" := by decide +kernel

end Concrete

end Phone

end OpenApocLauncher
