import OpenApocLauncher.ConfigTypes
import OpenApocLauncher.Launcher
import OpenApocLauncher.UpdateDetection

namespace OpenApocLauncher

open AssetUnzipper PreloaderActivity

variable [Device]

/-- Preferences that a fresh install has come to by writes of typed values. -/
def StoredTyped (mPrefs : Preferences) : Prop :=
  ∃ writes, ConfigWrite.setDefaults ∉ writes ∧ mPrefs = ConfigWrite.history writes

theorem StoredTyped.empty : StoredTyped Preferences.empty := ⟨[], by simp, rfl⟩

theorem StoredTyped.setOption {mPrefs : Preferences} (h : StoredTyped mPrefs)
    {option : ConfigOption} (ordinary : option ≠ .androidDataHash) (value : String) :
    StoredTyped (Config.setOption mPrefs option value) := by
  obtain ⟨writes, typed, rfl⟩ := h
  refine ⟨writes ++ [.setOption option ordinary value], by simpa using typed, ?_⟩
  rw [ConfigWrite.history_concat]
  rfl

theorem StoredTyped.setDataHash {mPrefs : Preferences} (h : StoredTyped mPrefs)
    (values : Finset String) : StoredTyped (Config.setOptionSet mPrefs .androidDataHash values) := by
  obtain ⟨writes, typed, rfl⟩ := h
  refine ⟨writes ++ [.setDataHash values], by simpa using typed, ?_⟩
  rw [ConfigWrite.history_concat]
  rfl

theorem StoredTyped.getOption {mPrefs : Preferences} (h : StoredTyped mPrefs)
    {option : ConfigOption} (ordinary : option ≠ .androidDataHash) :
    ∃ value, Config.getOption mPrefs option = .ok value := by
  obtain ⟨writes, _, rfl⟩ := h
  exact ConfigWrite.history_getString writes ordinary _

theorem StoredTyped.getOptionSet {mPrefs : Preferences} (h : StoredTyped mPrefs) :
    ∃ lines, Config.getOptionSet mPrefs .androidDataHash = .ok lines := by
  obtain ⟨writes, typed, rfl⟩ := h
  exact ConfigWrite.history_getOptionSet typed

theorem StoredTyped.eitherExists {mPrefs : Preferences} (h : StoredTyped mPrefs) (view : View)
    (localOption systemOption : ConfigOption) (first : localOption ≠ .androidDataHash)
    (second : systemOption ≠ .androidDataHash) :
    ∃ found, PreloaderActivity.eitherExists view mPrefs localOption systemOption = .ok found := by
  obtain ⟨localPath, hl⟩ := h.getOption first
  obtain ⟨systemPath, hs⟩ := h.getOption second
  cases there : view.fileExists localPath with
  | true => exact ⟨true, by simp [PreloaderActivity.eitherExists, hl, there]⟩
  | false =>
    exact ⟨view.fileExists systemPath, by simp [PreloaderActivity.eitherExists, hl, hs, there]⟩

theorem StoredTyped.needsUpdating {mPrefs : Preferences} (h : StoredTyped mPrefs) (view : View) :
    ∃ update, PreloaderActivity.needsUpdating view mPrefs = .ok update := by
  obtain ⟨found, iso⟩ := h.eitherExists view .resLocalCdPath .resSystemCdPath (by decide) (by decide)
  obtain ⟨lines, record⟩ := h.getOptionSet
  cases found with
  | true => exact ⟨_, needsUpdating_of_record iso record⟩
  | false => exact ⟨false, by simp [PreloaderActivity.needsUpdating, iso]⟩

theorem StoredTyped.step_check (io : Schedule) {s : Launcher} (h : StoredTyped s.mPrefs)
    {event : LauncherEvent} {listed : Bool} (check : event.check? = some listed) :
    ∃ configs games added, s.step io event = { s with configs, games, queue := s.queue ++ added } ∧
      ∀ task ∈ added, (task : UnpackTask).todo = unpackProgram s.assets ∧ task.assetHashes = [] := by
  obtain ⟨configs, call⟩ := Launcher.step_of_check io s check
  obtain ⟨isoExists, iso⟩ := h.eitherExists (s.view listed) .resLocalCdPath .resSystemCdPath
    (by decide) (by decide)
  obtain ⟨dataExists, data⟩ := h.eitherExists (s.view listed) .resLocalDataDir .resSystemDataDir
    (by decide) (by decide)
  obtain ⟨update, upd⟩ := h.needsUpdating (s.view listed)
  obtain ⟨localDataDir, dir⟩ := h.getOption (show ConfigOption.resLocalDataDir ≠ .androidDataHash by decide)
  have run : (checkSanity (s.view listed)).run ⟨s.mPrefs, []⟩ = .ok ()
      ⟨s.mPrefs, [] ++ sanityActions isoExists dataExists update localDataDir⟩ :=
    checkSanity_run iso data upd dir
  obtain ⟨configs', games, issued⟩ := Launcher.issue_sanityActions { s with configs }
    isoExists dataExists update localDataDir
  let added : List UnpackTask :=
    if update then [⟨.preloader, unpackPath localDataDir, unpackProgram s.assets, []⟩] else []
  refine ⟨configs', games, added, ?_, ?_⟩
  · rw [call, Launcher.runUi, run]
    exact issued
  · intro task mem
    cases update with
    | true =>
      obtain rfl := List.mem_singleton.mp mem
      exact ⟨rfl, rfl⟩
    | false => exact absurd mem (by simp [added])

end OpenApocLauncher
