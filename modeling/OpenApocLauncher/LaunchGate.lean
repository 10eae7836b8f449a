import OpenApocLauncher.Launcher

namespace OpenApocLauncher

open PreloaderActivity

structure SanityCall where
  mPrefs : Preferences
  view : View

section Gate

variable [Device]

def SanityCall.DataPresent (call : SanityCall) : Prop :=
  EitherExists call.view call.mPrefs .resLocalCdPath .resSystemCdPath ∧
    EitherExists call.view call.mPrefs .resLocalDataDir .resSystemDataDir

def LaunchAction.isLaunch : LaunchAction → Bool
  | .startConfig => false
  | .startGame => true
  | .startUnpack _ => true

/-- The call returns and issues exactly one action, which is the config activity unless the
data is there. -/
def LaunchGate (call : SanityCall) : Prop :=
  ∃ ui action, (checkSanity call.view).run ⟨call.mPrefs, []⟩ = .ok () ui ∧ ui.actions = [action] ∧
    (action.isLaunch = true → call.DataPresent) ∧ (¬call.DataPresent → action = .startConfig)

/-- The three values the call reads first under their keys have the types it asks for. -/
structure SanityCall.Typed (call : SanityCall) : Prop where
  localCdPath : ∃ path, Config.getOption call.mPrefs .resLocalCdPath = .ok path
  localDataDir : ∃ path, Config.getOption call.mPrefs .resLocalDataDir = .ok path
  dataHash : ∃ lines, Config.getOptionSet call.mPrefs .androidDataHash = .ok lines

theorem dataHash_of_needsUpdating {view : View} {mPrefs : Preferences} {update : Bool}
    (iso : eitherExists view mPrefs .resLocalCdPath .resSystemCdPath = .ok true)
    (h : needsUpdating view mPrefs = .ok update) :
    ∃ lines, Config.getOptionSet mPrefs .androidDataHash = .ok lines := by
  cases hash : Config.getOptionSet mPrefs .androidDataHash with
  | ok lines => exact ⟨lines, rfl⟩
  | error e => simp [needsUpdating, iso, hash] at h

omit [Device] in
theorem sanityActions_eq_singleton {isoExists dataExists update : Bool} {localDataDir : String}
    {action : LaunchAction}
    (h : sanityActions isoExists dataExists update localDataDir = [action]) :
    isoExists = true ∧ dataExists = true := by
  have length := congrArg List.length h
  cases isoExists <;> cases dataExists <;> simp [sanityActions, configUnless] at length ⊢

theorem launchGate_call (call : SanityCall) :
    LaunchGate call ↔ call.DataPresent ∧ call.Typed := by
  constructor
  · rintro ⟨ui, action, run, single, _⟩
    obtain ⟨isoExists, dataExists, update, localDataDir, iso, data, upd, dir, rfl⟩ := checkSanity_ok run
    obtain ⟨rfl, rfl⟩ := sanityActions_eq_singleton single
    obtain ⟨localCd, isoThere⟩ := eitherExists_true.mp iso
    obtain ⟨_, dataThere⟩ := eitherExists_true.mp data
    exact ⟨⟨isoThere, dataThere⟩, localCd, ⟨localDataDir, dir⟩, dataHash_of_needsUpdating iso upd⟩
  · rintro ⟨⟨isoThere, dataThere⟩, typed⟩
    have iso := eitherExists_true.mpr ⟨typed.localCdPath, isoThere⟩
    have data := eitherExists_true.mpr ⟨typed.localDataDir, dataThere⟩
    obtain ⟨localDataDir, dir⟩ := typed.localDataDir
    obtain ⟨lines, hash⟩ := typed.dataHash
    obtain ⟨update, upd⟩ : ∃ update, needsUpdating call.view call.mPrefs = .ok update :=
      ⟨_, needsUpdating_of_record iso hash⟩
    have present : call.DataPresent := ⟨isoThere, dataThere⟩
    have run : (checkSanity call.view).run ⟨call.mPrefs, []⟩ = .ok ()
        ⟨call.mPrefs, [] ++ sanityActions true true update localDataDir⟩ :=
      checkSanity_run iso data upd dir
    refine ⟨_, _, run, rfl, ?_, ?_⟩
    · exact fun _ => present
    · exact fun absent => absurd present absent

def sanityCalls (io : Schedule) (s : Launcher) : List LauncherEvent → List SanityCall
  | [] => []
  | event :: events =>
    let calls := match event.check? with
      | some listed => [⟨s.mPrefs, s.view listed⟩]
      | none => []
    calls ++ sanityCalls io (s.step io event) events

/-- A call keeps the launch gate exactly when a CD path and a data directory exist in what it
sees and its options are stored under their types: in every run, from any state. -/
theorem launchGate_iff (io : Schedule) (start : Launcher) (events : List LauncherEvent) :
    ∀ call ∈ sanityCalls io start events, LaunchGate call ↔ call.DataPresent ∧ call.Typed :=
  fun call _ => launchGate_call call

end Gate

section Concrete

attribute [local instance] emulator

theorem launchGate_equipped :
    LaunchGate ⟨Preferences.empty, (Launcher.equipped (.release [1] none)).view true⟩ ↔
      (SanityCall.mk Preferences.empty ((Launcher.equipped (.release [1] none)).view true)).DataPresent ∧
        (SanityCall.mk Preferences.empty ((Launcher.equipped (.release [1] none)).view true)).Typed :=
  launchGate_iff .quiet (.equipped (.release [1] none)) [.create true] _ List.mem_cons_self

/-- The first start on an empty SD card: two config activities and the game. -/
theorem launchGate_installed :
    ∃ call ∈ sanityCalls .quiet (.installed (.release [1] none)) [.create true], ¬LaunchGate call := by
  refine ⟨_, List.mem_cons_self, ?_⟩
  rintro ⟨ui, action, run, single, _⟩
  have issued : (Effects.final (checkSanity ((Launcher.installed (.release [1] none)).view true))
      ⟨Preferences.empty, []⟩).actions = [.startConfig, .startConfig, .startGame] := by
    decide +kernel
  rw [show Effects.final (checkSanity ((Launcher.installed (.release [1] none)).view true))
    ⟨Preferences.empty, []⟩ = ui from Effects.final_of_ok run, single] at issued
  simp at issued

end Concrete

end OpenApocLauncher
