import OpenApocLauncher.Arguments
import OpenApocLauncher.LauncherSteps

namespace OpenApocLauncher

open AssetUnzipper Machine
open PreloaderActivity (unpackPath)

/-- Where a stored data directory can come from: it was stored at the start, it belongs to a
picked directory, or an update stored it in place of another one. -/
inductive StoredDir (dataDir : String) (picked : List String) : String → Prop
  | kept : StoredDir dataDir picked dataDir
  | picked {path : String} (mem : path ∈ picked) : StoredDir dataDir picked (path ++ "/data")
  | updated {dir : String} (before : StoredDir dataDir picked dir) :
      StoredDir dataDir picked (unpackPath dir)

def pickedDirs (events : List LauncherEvent) : List String :=
  events.filterMap fun
    | .pickDirectory path => some path
    | _ => none

def selectedIsos (events : List LauncherEvent) : List String :=
  events.filterMap fun
    | .selectIso path => some path
    | _ => none

theorem mem_pickedDirs {events : List LauncherEvent} {path : String} :
    path ∈ pickedDirs events ↔ .pickDirectory path ∈ events := by
  rw [pickedDirs, List.mem_filterMap]
  constructor
  · rintro ⟨event, mem, own⟩
    cases event with
    | pickDirectory other => exact Option.some.inj own ▸ mem
    | _ => simp at own
  · exact fun mem => ⟨_, mem, rfl⟩

theorem mem_selectedIsos {events : List LauncherEvent} {path : String} :
    path ∈ selectedIsos events ↔ .selectIso path ∈ events := by
  rw [selectedIsos, List.mem_filterMap]
  constructor
  · rintro ⟨event, mem, own⟩
    cases event with
    | selectIso other => exact Option.some.inj own ▸ mem
    | _ => simp at own
  · exact fun mem => ⟨_, mem, rfl⟩

namespace Launcher

section Sources

variable [Device]

/-- Every option has its value from the start, but for the two paths, whose values and those
that tasks are about to store come from the start or from what was picked. -/
structure Sourced (map : OptionMap) (dirs isos : List String) (s : Launcher) : Prop where
  dataDir : ∃ dir, Config.getOption s.mPrefs .resLocalDataDir = .ok dir ∧
    StoredDir (map .resLocalDataDir) dirs dir
  cdPath : ∃ path, Config.getOption s.mPrefs .resLocalCdPath = .ok path ∧
    (path = map .resLocalCdPath ∨ path ∈ isos)
  others : ∀ option, option ≠ .resLocalDataDir → option ≠ .resLocalCdPath →
    option ≠ .androidDataHash → Config.getOption s.mPrefs option = .ok (map option)
  tasks : ∀ task ∈ s.queue ++ s.posted,
    StoredDir (map .resLocalDataDir) dirs (task.owner.storedDir task.dataPath)

variable {map : OptionMap} {dirs isos : List String} {s : Launcher}

namespace Sourced

theorem step (h : Sourced map dirs isos s) (io : Schedule) (event : LauncherEvent)
    (dir : ∀ path, event = .pickDirectory path → path ∈ dirs)
    (iso : ∀ path, event = .selectIso path → path ∈ isos) :
    Sourced map dirs isos (s.step io event) := by
  refine ⟨?_, ?_, ?_, fun task mem => ?_⟩
  · rcases s.step_getOption io event (show ConfigOption.resLocalDataDir ≠ .androidDataHash by decide) with
      same | ⟨_, task, posted, stored⟩ | ⟨other, _⟩
    · rw [same]
      exact h.dataDir
    · exact ⟨_, stored, h.tasks task (List.mem_append_right _ posted)⟩
    · simp at other
  · rcases s.step_getOption io event (show ConfigOption.resLocalCdPath ≠ .androidDataHash by decide) with
      same | ⟨other, _⟩ | ⟨_, path, own, stored⟩
    · rw [same]
      exact h.cdPath
    · simp at other
    · exact ⟨path, stored, Or.inr (iso path own)⟩
  · intro option first second ordinary
    rcases s.step_getOption io event ordinary with same | ⟨other, _⟩ | ⟨other, _⟩
    · rw [same]
      exact h.others option first second ordinary
    · exact absurd other first
    · exact absurd other second
  · rcases s.step_tasks io event mem with ⟨old, there, sameOwner, samePath⟩ |
      ⟨_, ⟨config, pick⟩ | ⟨preloader, localDataDir, stored, root⟩⟩
    · rw [← sameOwner, ← samePath]
      exact h.tasks old there
    · rw [config]
      exact .picked (dir task.dataPath pick)
    · obtain ⟨stored', read, known⟩ := h.dataDir
      rw [stored] at read
      cases read
      rw [preloader, root]
      exact known.updated

theorem start (idle : s.queue = [] ∧ s.posted = []) (stored : ∀ option, option ≠ .androidDataHash →
    Config.getOption s.mPrefs option = .ok (map option)) : Sourced map dirs isos s := by
  refine ⟨⟨_, stored _ (by decide), .kept⟩, ⟨_, stored _ (by decide), Or.inl rfl⟩, ?_, ?_⟩
  · exact fun option _ _ ordinary => stored option ordinary
  · simp [idle]

theorem run (h : Sourced map dirs isos s) (io : Schedule) {events : List LauncherEvent}
    (picked : ∀ path ∈ pickedDirs events, path ∈ dirs)
    (selected : ∀ path ∈ selectedIsos events, path ∈ isos) :
    Sourced map dirs isos (Machine.run (Launcher.step io) s events) :=
  run_invariant (Sourced map dirs isos) (fun _ event mem h => h.step io event
    (fun path same => picked path (mem_pickedDirs.mpr (same ▸ mem)))
    fun path same => selected path (mem_selectedIsos.mpr (same ▸ mem))) h

/-- What the game is told. -/
theorem arguments (h : Sourced map dirs isos s) :
    ∃ told : OptionMap,
      (∀ option, option ≠ .resLocalDataDir → option ≠ .resLocalCdPath → told option = map option) ∧
      StoredDir (map .resLocalDataDir) dirs (told .resLocalDataDir) ∧
      (told .resLocalCdPath = map .resLocalCdPath ∨ told .resLocalCdPath ∈ isos) ∧
      ∀ extractionRun, ∃ args, OpenApocActivity.getArguments s.mPrefs extractionRun = .ok args ∧
        OpenApocActivity.Tells args told extractionRun := by
  obtain ⟨dir, storedDir, knownDir⟩ := h.dataDir
  obtain ⟨path, storedPath, knownPath⟩ := h.cdPath
  let told : OptionMap := fun option =>
    if option = .resLocalDataDir then dir else if option = .resLocalCdPath then path else map option
  have read : ∀ option : ConfigOption, option.isPassed = true →
      Config.getOption s.mPrefs option = .ok (told option) := by
    intro option passed
    by_cases isDir : option = .resLocalDataDir
    · simp only [told, if_pos isDir]
      rw [isDir, storedDir]
    · by_cases isPath : option = .resLocalCdPath
      · simp only [told, if_neg isDir, if_pos isPath]
        rw [isPath, storedPath]
      · simp only [told, if_neg isDir, if_neg isPath]
        exact h.others option isDir isPath (OpenApocActivity.ordinary_of_isPassed passed)
  refine ⟨told, fun option isDir isPath => ?_, knownDir, knownPath, fun extractionRun => ?_⟩
  · simp only [told, if_neg isDir, if_neg isPath]
  · exact ⟨_, OpenApocActivity.getArguments_eq read extractionRun,
      OpenApocActivity.tells_arguments told extractionRun⟩

end Sourced

end Sources

section Concrete

attribute [local instance] emulator

/-- A first start, a directory and an image picked, and the next start. -/
def firstUse : List LauncherEvent :=
  .create true :: .pickDirectory "/sdcard/apoc" :: List.replicate 6 .background ++
    [.post, .selectIso "/sdcard/XCOM.iso", .activityResult REQCODE_CONFIG true]

end Concrete

end Launcher

end OpenApocLauncher
