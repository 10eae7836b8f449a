import OpenApocLauncher.Machine
import OpenApocLauncher.Preloader
import OpenApocLauncher.UnpackProgram

namespace OpenApocLauncher

open AssetUnzipper Effects
open PreloaderActivity (sanityActions configUnless unpackPath)

inductive TaskOwner
  | preloader
  | config
  deriving DecidableEq

/-- An unpack on the background thread: the steps its `unzipAssets` has still to perform
and the hashes it has collected. -/
structure UnpackTask where
  owner : TaskOwner
  dataPath : String
  todo : List Work
  assetHashes : List (String × String)
  deriving DecidableEq

def TaskOwner.onPostExecute : TaskOwner → String → Ui Unit
  | .preloader => PreloaderActivity.onPostExecute
  | .config => ConfigActivity.onPostExecute

def TaskOwner.storedDir : TaskOwner → String → String
  | .preloader, dataPath => dataPath
  | .config, dataPath => dataPath ++ "/data"

/-- The phone around the launcher. `queue` is AsyncTask's serial executor, its head running;
`posted` are the tasks that left it and whose `onPostExecute` is still to come, in order. -/
structure Launcher where
  assets : Bundle
  tree : FileTree String (List UInt8)
  clock : Nat
  mPrefs : Preferences
  queue : List UnpackTask
  posted : List UnpackTask
  configs : Nat
  games : Nat

def REQCODE_CONFIG : Int := 1
def REQCODE_GAME : Int := 2

inductive LauncherEvent
  /-- `PreloaderActivity.onCreate`, of a new or a re-created instance -/
  | create (listed : Bool)
  | activityResult (requestCode : Int) (listed : Bool)
  | pickDirectory (path : String)
  /-- an ISO that `ConfigActivity` has checked -/
  | selectIso (path : String)
  | background
  | post
  | kill
  | upgrade (assets : Bundle)
  | external (tree : FileTree String (List UInt8))

namespace Launcher

/-- `new File(path).exists()` is false for the empty path. -/
def view (s : Launcher) (listed : Bool) : View where
  fileExists path := decide (path ≠ "") && s.tree.exists? (FilePath.resolve path)
  assets := s.assets
  listed := listed

theorem view_fileExists_iff (s : Launcher) (listed : Bool) (path : String) :
    (s.view listed).fileExists path = true ↔
      path ≠ "" ∧ s.tree.exists? (FilePath.resolve path) = true := by
  rw [view, Bool.and_eq_true, decide_eq_true_iff]

/-- The process dies: its tasks and its activities are gone. -/
def killed (s : Launcher) : Launcher := { s with queue := [], posted := [], configs := 0, games := 0 }

def unzipState (s : Launcher) (task : UnpackTask) : UnzipState :=
  ⟨s.tree, s.clock, s.mPrefs, task.assetHashes⟩

section Steps

variable [Device]

def enqueue (s : Launcher) (owner : TaskOwner) (dataPath : String) : Launcher :=
  { s with queue := s.queue ++ [⟨owner, dataPath, unpackProgram s.assets, []⟩] }

def issue (s : Launcher) : LaunchAction → Launcher
  | .startConfig => { s with configs := s.configs + 1 }
  | .startGame => { s with games := s.games + 1 }
  | .startUnpack dataPath => s.enqueue .preloader dataPath

/-- Code on the UI thread; an uncaught exception kills the process. -/
def runUi (s : Launcher) (program : Ui Unit) : Launcher :=
  match program.run ⟨s.mPrefs, []⟩ with
  | .ok _ ui => ui.actions.foldl issue { s with mPrefs := ui.mPrefs }
  | .error _ _ => s.killed

def checkSanity (s : Launcher) (listed : Bool) : Launcher :=
  s.runUi (PreloaderActivity.checkSanity (s.view listed))

def onActivityResult (s : Launcher) (requestCode : Int) (listed : Bool) : Launcher :=
  if requestCode = REQCODE_CONFIG then { s with configs := s.configs - 1 }.checkSanity listed
  -- finish(): the activity is gone, the process and its tasks stay
  else if requestCode = REQCODE_GAME then { s with games := s.games - 1 }
  else s

/-- The running task performs its next step; after the last one it stores the record and
leaves the queue. An IOException skips the steps that are left. -/
def background (io : Schedule) (s : Launcher) : Launcher :=
  match s.queue with
  | [] => s
  | task :: rest =>
    match task.todo with
    | [] =>
      { s with
        mPrefs := (storeRecord (s.unzipState task)).mPrefs
        queue := rest
        posted := s.posted ++ [task] }
    | work :: todo =>
      match (work.perform io s.assets task.dataPath).run (s.unzipState task) with
      | .ok _ st =>
        { s with
          tree := st.tree
          clock := st.clock
          mPrefs := st.mPrefs
          queue := { task with todo, assetHashes := st.assetHashes } :: rest }
      | .error _ st =>
        { s with
          tree := st.tree
          clock := st.clock
          mPrefs := st.mPrefs
          queue := { task with todo := [], assetHashes := st.assetHashes } :: rest }

def post (s : Launcher) : Launcher :=
  match s.posted with
  | [] => s
  | task :: rest => { s with posted := rest }.runUi (task.owner.onPostExecute task.dataPath)

def step (io : Schedule) (s : Launcher) : LauncherEvent → Launcher
  | .create listed => s.checkSanity listed
  | .activityResult requestCode listed => s.onActivityResult requestCode listed
  | .pickDirectory path => s.enqueue .config path
  | .selectIso path => { s with mPrefs := Config.setOption s.mPrefs .resLocalCdPath path }
  | .background => s.background io
  | .post => s.post
  | .kill => s.killed
  | .upgrade assets => { s.killed with assets }
  | .external tree => { s with tree }

end Steps

end Launcher

/-- The callers of `checkSanity`, with what `assets.list("")` answers in the call. -/
def LauncherEvent.check? : LauncherEvent → Option Bool
  | .create listed => some listed
  | .activityResult requestCode listed => if requestCode = REQCODE_CONFIG then some listed else none
  | _ => none

namespace Launcher

variable [Device]

theorem step_of_check (io : Schedule) (s : Launcher) {event : LauncherEvent} {listed : Bool}
    (h : event.check? = some listed) :
    ∃ configs, s.step io event =
      { s with configs }.runUi (PreloaderActivity.checkSanity (s.view listed)) := by
  cases event with
  | create listed' =>
    cases Option.some.inj h
    exact ⟨s.configs, rfl⟩
  | activityResult requestCode listed' =>
    simp only [LauncherEvent.check?] at h
    split at h
    next config =>
      cases Option.some.inj h
      exact ⟨s.configs - 1, by simp only [step, onActivityResult, if_pos config]; rfl⟩
    next => simp at h
  | _ => simp [LauncherEvent.check?] at h

theorem issue_sanityActions (s : Launcher) (isoExists dataExists update : Bool)
    (localDataDir : String) :
    ∃ configs games, (sanityActions isoExists dataExists update localDataDir).foldl issue s =
      { s with
        configs
        games
        queue := s.queue ++ (if update then
          [⟨.preloader, unpackPath localDataDir, unpackProgram s.assets, []⟩] else []) } := by
  cases isoExists <;> cases dataExists <;> cases update <;>
    simp [sanityActions, configUnless, issue, enqueue]

theorem post_eq (s : Launcher) {task : UnpackTask} {rest : List UnpackTask}
    (h : s.posted = task :: rest) :
    s.post =
      { s with
        posted := rest
        mPrefs := Config.setOption s.mPrefs .resLocalDataDir (task.owner.storedDir task.dataPath)
        games := s.games + (if task.owner = .preloader then 1 else 0) } := by
  simp only [post, h]
  cases task.owner <;> rfl

/-- The running task, taken to its end by background steps, leaves what `unzipAssets` leaves. -/
theorem background_completes (io : Schedule) (s : Launcher) {task : UnpackTask}
    {rest : List UnpackTask} (h : s.queue = task :: rest) :
    ∃ rounds ended, (ended : UnpackTask).owner = task.owner ∧ ended.dataPath = task.dataPath ∧
      let st := storeRecord
        (final (performAll io s.assets task.dataPath task.todo) (s.unzipState task))
      Machine.run (step io) s (List.replicate rounds .background) =
        { s with
          tree := st.tree
          clock := st.clock
          mPrefs := st.mPrefs
          queue := rest
          posted := s.posted ++ [ended] } := by
  obtain ⟨owner, dataPath, todo, assetHashes⟩ := task
  -- one round per step, and a last one that stores the record
  induction todo generalizing s assetHashes with
  | nil =>
    refine ⟨1, ⟨owner, dataPath, [], assetHashes⟩, rfl, rfl, ?_⟩
    simp [step, background, h, performAll, final, storeRecord, unzipState]
  | cons work todo ih =>
    cases hw : (work.perform io s.assets dataPath).run
        (s.unzipState ⟨owner, dataPath, work :: todo, assetHashes⟩) with
    | ok u st =>
      let next : Launcher :=
        { s with
          tree := st.tree
          clock := st.clock
          mPrefs := st.mPrefs
          queue := ⟨owner, dataPath, todo, st.assetHashes⟩ :: rest }
      have first : s.background io = next := by simp [background, h, hw, next]
      obtain ⟨rounds, ended, ho, hd, hrun⟩ := ih next st.assetHashes rfl
      refine ⟨rounds + 1, ended, ho, hd, ?_⟩
      rw [List.replicate_succ, Machine.run_cons, show step io s .background = next from first, hrun]
      simp only [next, unzipState] at hw ⊢
      simp only [final, performAll, EStateM.run_bind, hw]
    | error e st =>
      let next : Launcher :=
        { s with
          tree := st.tree
          clock := st.clock
          mPrefs := st.mPrefs
          queue := ⟨owner, dataPath, [], st.assetHashes⟩ :: rest }
      have first : s.background io = next := by simp [background, h, hw, next]
      refine ⟨2, ⟨owner, dataPath, [], st.assetHashes⟩, rfl, rfl, ?_⟩
      rw [show List.replicate 2 LauncherEvent.background = [.background, .background] from rfl,
        Machine.run_cons, show step io s .background = next from first, Machine.run_cons,
        Machine.run_nil]
      simp only [unzipState] at hw
      simp [step, background, next, final, performAll, hw, storeRecord, unzipState]

/-- A task that has just been started runs `unzipAssets`, step by step. -/
theorem background_unzipAssets (io : Schedule) (s : Launcher) {owner : TaskOwner} {dataPath : String}
    {rest : List UnpackTask}
    (h : s.queue = ⟨owner, dataPath, unpackProgram s.assets, []⟩ :: rest) :
    ∃ rounds ended, (ended : UnpackTask).owner = owner ∧ ended.dataPath = dataPath ∧
      let st := final (unzipAssets io s.assets dataPath) ⟨s.tree, s.clock, s.mPrefs, []⟩
      Machine.run (step io) s (List.replicate rounds .background) =
        { s with
          tree := st.tree
          clock := st.clock
          mPrefs := st.mPrefs
          queue := rest
          posted := s.posted ++ [ended] } := by
  obtain ⟨rounds, ended, ho, hd, hrun⟩ := background_completes io s h
  refine ⟨rounds, ended, ho, hd, ?_⟩
  rw [final_of_ok (unzipAssets_run io s.assets dataPath _)]
  exact hrun

end Launcher

def Launcher.installed (assets : Bundle) : Launcher :=
  ⟨assets, FileTree.empty, 0, Preferences.empty, [], [], 0, 0⟩

def Launcher.equipped (assets : Bundle) : Launcher :=
  let card := do
    let tree ← FileTree.empty.mkdir ["sdcard"]
    let tree ← tree.mkdir ["OpenApoc", "sdcard"]
    let tree ← tree.mkdir ["data", "OpenApoc", "sdcard"]
    tree.store [] ["XCOM.cue", "OpenApoc", "sdcard"]
  { Launcher.installed assets with tree := card.getD FileTree.empty }

end OpenApocLauncher
