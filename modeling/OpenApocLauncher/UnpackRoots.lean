import OpenApocLauncher.Containment
import OpenApocLauncher.Provenance

namespace OpenApocLauncher

open AssetUnzipper Effects Machine
open PreloaderActivity (unpackPath unpackPath_append unpackPath_of_not_endsWith)

/-- The entries stay in any directory they are unpacked into. -/
def Bundle.Confined [Device] (assets : Bundle) : Prop :=
  ∀ path, ∀ ze ∈ assets.allEntries, ¬ze.Leaves path

theorem ZipEntry.not_leaves_of_normalised {ze : ZipEntry} (plain : ze.Normalised) (path : String) :
    ¬ze.Leaves path := by
  have target := ze.target_eq_under plain path
  have below : FilePath.resolve path <:+ ze.target path := by
    rw [target]
    exact List.suffix_append _ _
  rw [ZipEntry.Leaves]
  split
  next => exact fun leaves => leaves.2 below
  next =>
    refine not_not_intro ⟨below, fun same => ?_⟩
    rw [target, ZipEntry.under, List.append_left_eq_self, List.reverse_eq_nil_iff] at same
    rw [ZipEntry.components, FilePath.components, List.map_eq_nil_iff] at same
    exact List.splitOn_ne_nil _ _ same

/-- Some last components of the folder that are named data are dropped. -/
def DropsData (folder root : FilePath) : Prop := ∃ count, folder = List.replicate count "data" ++ root

theorem DropsData.refl (folder : FilePath) : DropsData folder folder := ⟨0, rfl⟩

theorem DropsData.tail {folder root : FilePath} (h : DropsData folder ("data" :: root)) :
    DropsData folder root := by
  obtain ⟨count, rfl⟩ := h
  refine ⟨count + 1, ?_⟩
  rw [List.replicate_succ', List.append_assoc, List.singleton_append]

theorem DropsData.unpackPath {folder : FilePath} {dir : String}
    (h : DropsData folder (FilePath.resolve dir)) :
    DropsData folder (FilePath.resolve (PreloaderActivity.unpackPath dir)) := by
  by_cases suffix : Text.endsWith dir "/data" = true
  · obtain ⟨root, rfl⟩ := Text.endsWith_iff.mp suffix
    rw [unpackPath_append]
    apply DropsData.tail
    have below : FilePath.resolve (root ++ "/data") = "data" :: FilePath.resolve root := by
      have joined := FilePath.resolve_join root "data"
      rw [String.append_assoc] at joined
      exact joined
    rwa [below] at h
  · rwa [unpackPath_of_not_endsWith (Bool.not_eq_true _ ▸ suffix)]

namespace Launcher

section Roots

variable [Device]

/-- Where an unpack of a run can lead: into a picked directory or the one stored at the start,
less components named data at its end. -/
def UnpackRoot (start : Launcher) (picked : List String) (root : FilePath) : Prop :=
  (∃ dir, Config.getOption start.mPrefs .resLocalDataDir = .ok dir ∧
      DropsData (FilePath.resolve dir) root) ∨
    ∃ path ∈ picked, DropsData (FilePath.resolve path) root

theorem UnpackRoot.unpackPath {start : Launcher} {picked : List String} {dir : String}
    (h : UnpackRoot start picked (FilePath.resolve dir)) :
    UnpackRoot start picked (FilePath.resolve (PreloaderActivity.unpackPath dir)) :=
  h.imp (fun ⟨stored, read, drops⟩ => ⟨stored, read, drops.unpackPath⟩)
    fun ⟨path, mem, drops⟩ => ⟨path, mem, drops.unpackPath⟩

/-- The tasks, and the updates of what is or will be stored, lead into such roots. -/
structure Rooted (start : Launcher) (picked : List String) (s : Launcher) : Prop where
  dataDir : ∀ dir, Config.getOption s.mPrefs .resLocalDataDir = .ok dir →
    UnpackRoot start picked (FilePath.resolve (unpackPath dir))
  tasks : ∀ task ∈ s.queue ++ s.posted, UnpackRoot start picked (FilePath.resolve task.dataPath)
  todo : ∀ task ∈ s.queue, ∀ ze ∈ zipEntries task.todo, ze ∈ s.assets.allEntries

variable {start s : Launcher} {picked : List String}

theorem UnpackRoot.stored {dataPath : String} (owner : TaskOwner)
    (h : UnpackRoot start picked (FilePath.resolve dataPath)) :
    UnpackRoot start picked (FilePath.resolve (PreloaderActivity.unpackPath (owner.storedDir dataPath))) := by
  cases owner with
  | preloader => exact h.unpackPath
  | config =>
    rw [TaskOwner.storedDir, unpackPath_append]
    exact h

theorem Rooted.step (h : Rooted start picked s) (io : Schedule) (event : LauncherEvent)
    (dir : ∀ path, event = .pickDirectory path → path ∈ picked) :
    Rooted start picked (s.step io event) := by
  refine ⟨fun localDataDir stored => ?_, fun task mem => ?_, fun task mem ze entry => ?_⟩
  · rcases s.step_getOption io event (show ConfigOption.resLocalDataDir ≠ .androidDataHash by decide) with
      same | ⟨_, task, posted, own⟩ | ⟨other, _⟩
    · rw [same] at stored
      exact h.dataDir localDataDir stored
    · rw [own] at stored
      cases stored
      exact (h.tasks task (List.mem_append_right _ posted)).stored task.owner
    · simp at other
  · rcases s.step_tasks io event mem with ⟨old, there, _, samePath⟩ |
      ⟨_, ⟨_, pick⟩ | ⟨_, localDataDir, stored, root⟩⟩
    · rw [← samePath]
      exact h.tasks old there
    · exact Or.inr ⟨_, dir _ pick, .refl _⟩
    · rw [root]
      exact h.dataDir localDataDir stored
  · obtain ⟨assets, ⟨old, there, left⟩ | whole⟩ := s.step_todo io event mem
    · rw [assets]
      exact h.todo old there ze ((left.filterMap _).subset entry)
    · rwa [whole, unpackProgram_zipEntries, ← assets] at entry

/-- The tree is kept, or changed from outside, or changed by a running task. -/
theorem step_tree (io : Schedule) (s : Launcher) (event : LauncherEvent) :
    (s.step io event).tree = s.tree ∨ (∃ tree, event = .external tree ∧ (s.step io event).tree = tree) ∨
      ∃ task ∈ s.queue, Touched task.dataPath (zipEntries task.todo) s.tree (s.step io event).tree := by
  have stepped := s.step_stepped io event
  generalize s.step io event = after at stepped ⊢
  cases stepped with
  | changed tree own => exact Or.inr (Or.inl ⟨tree, own, rfl⟩)
  | @worked task next work todo rest queue own =>
    refine Or.inr (Or.inr ⟨task, by simp [queue], ?_⟩)
    apply Work.perform_touchedBy
    intro ze entry
    rw [own, zipEntries_cons]
    exact List.mem_append_left _ (Option.mem_toList.mpr entry)
  | _ => exact Or.inl rfl

theorem step_assets (io : Schedule) (s : Launcher) (event : LauncherEvent) :
    (s.step io event).assets = s.assets ∨ event = .upgrade (s.step io event).assets := by
  have stepped := s.step_stepped io event
  generalize s.step io event = after at stepped ⊢
  cases stepped with
  | died assets own => exact own
  | _ => exact Or.inl rfl

/-- The tree is as before, or changed from outside, or changed in such a root alone. -/
def ChangesRoot (s : Launcher) (io : Schedule) (start : Launcher) (picked : List String)
    (event : LauncherEvent) : Prop :=
  (s.step io event).tree = s.tree ∨ (∃ tree, event = .external tree) ∨
    ∃ root, UnpackRoot start picked root ∧ StaysInside root s.tree (s.step io event).tree

theorem Rooted.changesRoot (h : Rooted start picked s) (io : Schedule) (confined : s.assets.Confined)
    (event : LauncherEvent) : s.ChangesRoot io start picked event := by
  rcases step_tree io s event with same | ⟨tree, outside, _⟩ | ⟨task, queued, touched⟩
  · exact Or.inl same
  · exact Or.inr (Or.inl ⟨tree, outside⟩)
  · refine Or.inr (Or.inr ⟨_, h.tasks task (List.mem_append_left _ queued), ?_⟩)
    exact touched.staysInside fun ze entry => confined _ ze (h.todo task queued ze entry)

theorem rooted_of_idle (idle : start.queue = [] ∧ start.posted = []) (picked : List String) :
    Rooted start picked start := by
  refine ⟨fun dir stored => Or.inl ⟨dir, stored, (DropsData.refl _).unpackPath⟩, ?_, ?_⟩
  · simp [idle]
  · simp [idle]

theorem Rooted.guarded (h : Rooted start picked s) (io : Schedule) (own : s.assets.Confined)
    {events : List LauncherEvent} (dirs : ∀ path ∈ pickedDirs events, path ∈ picked)
    (upgrades : ∀ assets, .upgrade assets ∈ events → assets.Confined) :
    Guarded (Launcher.step io) (fun s event => s.ChangesRoot io start picked event) s events := by
  apply guarded_of_invariant fun s => Rooted start picked s ∧ s.assets.Confined
  · rintro s event mem ⟨rooted, own⟩
    refine ⟨rooted.step io event fun path same => dirs path (mem_pickedDirs.mpr (same ▸ mem)), ?_⟩
    rcases step_assets io s event with same | upgrade
    · rwa [same]
    · exact upgrades _ (upgrade ▸ mem)
  · exact ⟨h, own⟩
  · rintro s event _ ⟨rooted, own⟩
    exact rooted.changesRoot io own event

/-- However the launcher is used from an idle start: what it changes lies in a directory that was
picked or stored at the start, or further up where only components named data were dropped. -/
theorem changes_rooted (io : Schedule) {start : Launcher}
    (idle : start.queue = [] ∧ start.posted = []) {events : List LauncherEvent}
    (confined : start.assets.Confined ∧ ∀ assets, .upgrade assets ∈ events → assets.Confined) :
    Guarded (step io) (fun s event => s.ChangesRoot io start (pickedDirs events) event) start events :=
  (rooted_of_idle idle _).guarded io confined.1 (fun _ mem => mem) confined.2

end Roots

section Concrete

attribute [local instance] emulator

theorem confined_release (content : List UInt8) (md5 : Option String) :
    (Bundle.release content md5).Confined := by
  intro path ze mem
  apply ZipEntry.not_leaves_of_normalised
  rw [allEntries_release] at mem
  rcases List.mem_cons.mp mem with rfl | last
  · unfold ZipEntry.Normalised
    decide +kernel
  · obtain rfl := List.mem_singleton.mp last
    have plain : ZipEntry.Normalised ⟨"data/rules.xml", []⟩ := by
      unfold ZipEntry.Normalised
      decide +kernel
    rw [ZipEntry.Normalised, ZipEntry.components] at plain ⊢
    exact plain

/-- A folder named data is picked, and two updates follow. -/
def climbingUpdates : List LauncherEvent :=
  let unpacked := List.replicate 6 .background ++ [.post]
  .pickDirectory "/sdcard/OpenApoc/data" :: unpacked ++
    .upgrade (.release [2] (some "5e01")) :: .create true :: unpacked ++
    .upgrade (.release [3] (some "9b20")) :: .create true :: unpacked

theorem changes_rooted_climbing :
    let start := equipped (.release [1] (some "7c3f"))
    Guarded (step .quiet) (fun s event => s.ChangesRoot .quiet start (pickedDirs climbingUpdates) event)
      start climbingUpdates := by
  apply changes_rooted .quiet ⟨rfl, rfl⟩
  refine ⟨confined_release _ _, fun assets mem => ?_⟩
  have upgrades : assets = .release [2] (some "5e01") ∨ assets = .release [3] (some "9b20") := by
    simpa [climbingUpdates] using mem
  rcases upgrades with rfl | rfl
  · exact confined_release _ _
  · exact confined_release _ _

/-- The last of them has led out of the folder. -/
example : Config.getOption (run (step .quiet) (equipped (.release [1] (some "7c3f"))) climbingUpdates).mPrefs
    .resLocalDataDir = .ok "/sdcard/OpenApoc" := by decide +kernel

end Concrete

end Launcher

end OpenApocLauncher
