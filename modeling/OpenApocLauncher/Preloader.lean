import Mathlib.Data.Finset.Card
import OpenApocLauncher.AssetUnzipper

namespace OpenApocLauncher

open Effects

inductive LaunchAction
  | startConfig
  | startGame
  | startUnpack (dataPath : String)
  deriving DecidableEq

/-- What a call on the UI thread sees of the phone: which paths exist, the bundled assets,
and whether `assets.list("")` answers. -/
structure View where
  fileExists : String → Bool
  assets : Bundle
  listed : Bool

structure UiState where
  mPrefs : Preferences
  actions : List LaunchAction

/-- Code of the UI thread; a type error of the preferences ends it. -/
abbrev Ui := EStateM ClassCastException UiState

def Ui.lift {α : Type} : Except ClassCastException α → Ui α
  | .ok a => pure a
  | .error e => throw e

def Ui.start (action : LaunchAction) : Ui Unit :=
  modify fun ui => { ui with actions := ui.actions ++ [action] }

namespace PreloaderActivity

def runConfig : Ui Unit := Ui.start .startConfig

def runGame : Ui Unit := Ui.start .startGame

def onSanityCheckComplete (isSane : Bool) : Ui Unit := if isSane then runGame else runConfig

def dataSuffix : String := "/data"

/-- The directory an update unpacks into: RES_LOCAL_DATA_DIR less its ending `/data`. -/
def unpackPath (localDataDir : String) : String :=
  if Text.endsWith localDataDir dataSuffix then Text.dropEnd localDataDir dataSuffix.length
  else localDataDir

/-- `onPostExecute` of the unpack task: the path goes back without the `/data` stripped from it. -/
def onPostExecute (dataPath : String) : Ui Unit := do
  modify fun ui => { ui with mPrefs := Config.setOption ui.mPrefs .resLocalDataDir dataPath }
  onSanityCheckComplete true

variable [Device]

/-- Whether the file of the first option or, failing that, of the second one exists. -/
def eitherExists (view : View) (mPrefs : Preferences) (localOption systemOption : ConfigOption) :
    Except ClassCastException Bool := do
  let localPath ← Config.getOption mPrefs localOption
  if view.fileExists localPath then return true
  else
    let systemPath ← Config.getOption mPrefs systemOption
    return view.fileExists systemPath

def bundledHashes (view : View) : Finset String :=
  (AssetUnzipper.getAssetDataZips view.assets view.listed).image fun assetName =>
    AssetUnzipper.hashLine assetName (AssetUnzipper.getAssetHash view.assets assetName)

def needsUpdating (view : View) (mPrefs : Preferences) : Except ClassCastException Bool := do
  let isoExists ← eitherExists view mPrefs .resLocalCdPath .resSystemCdPath
  if !isoExists then return false
  else
    let storedHashes ← Config.getOptionSet mPrefs .androidDataHash
    let assetHashes := bundledHashes view
    return assetHashes.card != storedHashes.card || !decide (storedHashes ⊆ assetHashes)

def checkSanity (view : View) : Ui Unit := do
  let mPrefs := (← get).mPrefs
  let isoExists ← Ui.lift (eitherExists view mPrefs .resLocalCdPath .resSystemCdPath)
  if !isoExists then onSanityCheckComplete false
  -- the checks above and below do not return: the rest runs after a failed one, too
  let dataExists ← Ui.lift (eitherExists view mPrefs .resLocalDataDir .resSystemDataDir)
  if !dataExists then onSanityCheckComplete false
  if ← Ui.lift (needsUpdating view mPrefs) then
    let localDataDir ← Ui.lift (Config.getOption mPrefs .resLocalDataDir)
    Ui.start (.startUnpack (unpackPath localDataDir))
  else onSanityCheckComplete true

end PreloaderActivity

def ConfigActivity.onPostExecute (dataPath : String) : Ui Unit :=
  modify fun ui => { ui with
    mPrefs := Config.setOption ui.mPrefs .resLocalDataDir (dataPath ++ "/data") }

namespace PreloaderActivity

@[simp] theorem run_lift_ok {α : Type} (a : α) (ui : UiState) :
    (Ui.lift (.ok a : Except ClassCastException α)).run ui = .ok a ui := rfl

@[simp] theorem run_lift_error {α : Type} (e : ClassCastException) (ui : UiState) :
    (Ui.lift (.error e : Except ClassCastException α)).run ui = .error e ui := rfl

@[simp] theorem run_start (action : LaunchAction) (ui : UiState) :
    (Ui.start action).run ui = .ok () { ui with actions := ui.actions ++ [action] } := rfl

theorem unpackPath_append (root : String) : unpackPath (root ++ "/data") = root := by
  simp [unpackPath, dataSuffix]

theorem unpackPath_of_not_endsWith {dir : String} (h : Text.endsWith dir "/data" = false) :
    unpackPath dir = dir := by
  simp [unpackPath, dataSuffix, h]

variable [Device]

def EitherExists (view : View) (mPrefs : Preferences) (localOption systemOption : ConfigOption) : Prop :=
  ∃ option ∈ [localOption, systemOption], ∃ path,
    Config.getOption mPrefs option = .ok path ∧ view.fileExists path = true

theorem eitherExists_true {view : View} {mPrefs : Preferences} {localOption systemOption : ConfigOption} :
    eitherExists view mPrefs localOption systemOption = .ok true ↔
      (∃ path, Config.getOption mPrefs localOption = .ok path) ∧
        EitherExists view mPrefs localOption systemOption := by
  unfold eitherExists EitherExists
  cases hl : Config.getOption mPrefs localOption with
  | error e => simp
  | ok localPath =>
    cases there : view.fileExists localPath with
    | true =>
      simp only [ok_bind, there, if_true, pure_eq_ok, true_iff]
      exact ⟨⟨localPath, rfl⟩, localOption, by simp, localPath, hl, there⟩
    | false =>
      cases hs : Config.getOption mPrefs systemOption with
      | error e => simp [hl, hs, there]
      | ok systemPath => simp [hl, hs, there]

omit [Device] in
theorem card_ne_or_not_subset (current stored : Finset String) :
    (current.card != stored.card || !decide (stored ⊆ current)) = !decide (stored = current) := by
  by_cases same : stored = current
  · simp [same]
  · have differ : current.card ≠ stored.card ∨ ¬stored ⊆ current := by
      by_contra h
      push Not at h
      exact same (Finset.eq_of_subset_of_card_le h.2 h.1.le)
    rcases differ with size | inclusion
    · simp [same, size]
    · simp [same, inclusion]

/-- With the ISO found, an update is needed exactly when the record is not the bundle's. -/
theorem needsUpdating_of_record {view : View} {mPrefs : Preferences} {stored : Finset String}
    (iso : eitherExists view mPrefs .resLocalCdPath .resSystemCdPath = .ok true)
    (record : Config.getOptionSet mPrefs .androidDataHash = .ok stored) :
    needsUpdating view mPrefs = .ok (!decide (stored = bundledHashes view)) := by
  rw [← card_ne_or_not_subset]
  simp [needsUpdating, iso, record]

def configUnless (holds : Bool) : List LaunchAction := if holds then [] else [.startConfig]

def sanityActions (isoExists dataExists update : Bool) (localDataDir : String) : List LaunchAction :=
  configUnless isoExists ++ configUnless dataExists ++
    [if update then .startUnpack (unpackPath localDataDir) else .startGame]

/-- What `checkSanity` does when none of its reads raises: one action for each failed
check, and then always one more. -/
theorem checkSanity_run {view : View} {ui : UiState} {isoExists dataExists update : Bool}
    {localDataDir : String}
    (iso : eitherExists view ui.mPrefs .resLocalCdPath .resSystemCdPath = .ok isoExists)
    (data : eitherExists view ui.mPrefs .resLocalDataDir .resSystemDataDir = .ok dataExists)
    (upd : needsUpdating view ui.mPrefs = .ok update)
    (dir : Config.getOption ui.mPrefs .resLocalDataDir = .ok localDataDir) :
    (checkSanity view).run ui = .ok ()
      { ui with actions := ui.actions ++ sanityActions isoExists dataExists update localDataDir } := by
  unfold checkSanity
  simp only [EStateM.run_bind, EStateM.run_get, iso, data, upd, dir, run_lift_ok]
  cases isoExists <;> cases dataExists <;> cases update <;>
    simp [sanityActions, configUnless, onSanityCheckComplete, runConfig, runGame]

theorem checkSanity_ok {view : View} {ui ui' : UiState} {u : Unit}
    (h : (checkSanity view).run ui = .ok u ui') :
    ∃ isoExists dataExists update localDataDir,
      eitherExists view ui.mPrefs .resLocalCdPath .resSystemCdPath = .ok isoExists ∧
      eitherExists view ui.mPrefs .resLocalDataDir .resSystemDataDir = .ok dataExists ∧
      needsUpdating view ui.mPrefs = .ok update ∧
      Config.getOption ui.mPrefs .resLocalDataDir = .ok localDataDir ∧
      ui' = { ui with
        actions := ui.actions ++ sanityActions isoExists dataExists update localDataDir } := by
  have read : ∃ isoExists dataExists update localDataDir,
      eitherExists view ui.mPrefs .resLocalCdPath .resSystemCdPath = .ok isoExists ∧
      eitherExists view ui.mPrefs .resLocalDataDir .resSystemDataDir = .ok dataExists ∧
      needsUpdating view ui.mPrefs = .ok update ∧
      Config.getOption ui.mPrefs .resLocalDataDir = .ok localDataDir := by
    unfold checkSanity at h
    simp only [EStateM.run_bind, EStateM.run_get] at h
    cases iso : eitherExists view ui.mPrefs .resLocalCdPath .resSystemCdPath with
    | error e => simp [iso] at h
    | ok isoExists =>
      cases data : eitherExists view ui.mPrefs .resLocalDataDir .resSystemDataDir with
      | error e =>
        simp only [iso, data, run_lift_ok] at h
        cases isoExists <;> simp [onSanityCheckComplete, runConfig] at h
      | ok dataExists =>
        cases upd : needsUpdating view ui.mPrefs with
        | error e =>
          simp only [iso, data, upd, run_lift_ok] at h
          cases isoExists <;> cases dataExists <;>
            simp [onSanityCheckComplete, runConfig] at h
        | ok update =>
          cases dir : Config.getOption ui.mPrefs .resLocalDataDir with
          | error e =>
            rw [eitherExists, dir] at data
            cases data
          | ok localDataDir => exact ⟨isoExists, dataExists, update, localDataDir, rfl, rfl, rfl, rfl⟩
  obtain ⟨isoExists, dataExists, update, localDataDir, iso, data, upd, dir⟩ := read
  refine ⟨isoExists, dataExists, update, localDataDir, iso, data, upd, dir, ?_⟩
  rw [checkSanity_run iso data upd dir] at h
  cases h
  rfl

end PreloaderActivity

end OpenApocLauncher
