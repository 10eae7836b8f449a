import Mathlib.Data.List.Defs
import OpenApocLauncher.Launcher

namespace OpenApocLauncher

open AssetUnzipper PreloaderActivity Machine

namespace Launcher

def Waits (owner : TaskOwner) (dataPath : String) (s : Launcher) : Prop :=
  ∃ task : UnpackTask, task.owner = owner ∧ task.dataPath = dataPath ∧
    (s.queue = [task] ∧ s.posted = [] ∨ s.queue = [] ∧ s.posted = [task])

theorem Waits.background {io : Schedule} {owner : TaskOwner} {dataPath : String} {s : Launcher}
    (h : Waits owner dataPath s) : Waits owner dataPath (s.background io) := by
  obtain ⟨task, howner, hpath, queued | done⟩ := h
  · obtain ⟨hq, hp⟩ := queued
    unfold Launcher.background
    simp only [hq]
    split
    next => exact ⟨task, howner, hpath, Or.inr ⟨rfl, by simp [hp]⟩⟩
    next =>
      split
      next st _ => exact ⟨⟨_, _, _, st.assetHashes⟩, howner, hpath, Or.inl ⟨rfl, hp⟩⟩
      next st _ => exact ⟨⟨_, _, _, st.assetHashes⟩, howner, hpath, Or.inl ⟨rfl, hp⟩⟩
  · obtain ⟨hq, hp⟩ := done
    have idle : s.background io = s := by simp [Launcher.background, hq]
    rw [idle]
    exact ⟨task, howner, hpath, Or.inr ⟨hq, hp⟩⟩

variable [Device]

theorem Waits.rounds (io : Schedule) {owner : TaskOwner} {dataPath : String} {s : Launcher}
    (h : Waits owner dataPath s) (rounds : Nat) :
    Waits owner dataPath (run (step io) s (List.replicate rounds .background)) := by
  induction rounds generalizing s with
  | zero => exact h
  | succ rounds ih =>
    rw [List.replicate_succ, run_cons]
    exact ih h.background

/-- An update of the data: a check finds it needed and queues its task, background steps run
the task to its end, and its `onPostExecute` is delivered. -/
structure Update (io : Schedule) (before : Launcher) (dataPath : String) (after : Launcher) : Prop where
  idle : before.queue = [] ∧ before.posted = []
  performed : ∃ event rounds, (event : LauncherEvent).check? ≠ none ∧
    (before.step io event).queue = [⟨.preloader, dataPath, unpackProgram before.assets, []⟩] ∧
    (run (step io) (before.step io event) (List.replicate rounds .background)).queue = [] ∧
    after = run (step io) before (event :: List.replicate rounds .background ++ [.post])

/-- An update unpacks into the stored directory less its `/data` and stores just that. -/
theorem Update.directory {io : Schedule} {before after : Launcher} {dataPath : String}
    (h : Update io before dataPath after) :
    ∃ localDataDir, Config.getOption before.mPrefs .resLocalDataDir = .ok localDataDir ∧
      dataPath = unpackPath localDataDir ∧
      Config.getOption after.mPrefs .resLocalDataDir = .ok dataPath := by
  obtain ⟨event, rounds, check, queued, unpacked, rfl⟩ := h.performed
  obtain ⟨hqueue, hposted⟩ := h.idle
  obtain ⟨listed, check⟩ := Option.ne_none_iff_exists'.mp check
  obtain ⟨configs, call⟩ := step_of_check io before check
  have asked : ∃ localDataDir, Config.getOption before.mPrefs .resLocalDataDir = .ok localDataDir ∧
      dataPath = unpackPath localDataDir ∧ (before.step io event).posted = [] := by
    rw [call] at queued ⊢
    unfold runUi at queued ⊢
    cases hc : (PreloaderActivity.checkSanity (before.view listed)).run ⟨before.mPrefs, []⟩ with
    | error e ui => simp [hc, killed] at queued
    | ok u ui =>
      obtain ⟨isoExists, dataExists, update, localDataDir, _, _, _, dir, rfl⟩ := checkSanity_ok hc
      simp only [hc, List.nil_append] at queued ⊢
      obtain ⟨configs', games', issued⟩ := issue_sanityActions
        { before with configs, mPrefs := before.mPrefs } isoExists dataExists update localDataDir
      rw [issued] at queued ⊢
      simp only [hqueue] at queued
      cases update with
      | false => simp at queued
      | true =>
        simp only [if_true, List.nil_append, List.cons.injEq, UnpackTask.mk.injEq] at queued
        exact ⟨localDataDir, dir, queued.1.2.1.symm, hposted⟩
  obtain ⟨localDataDir, dir, root, posted⟩ := asked
  refine ⟨localDataDir, dir, root, ?_⟩
  have start : Waits .preloader dataPath (before.step io event) :=
    ⟨_, rfl, rfl, Or.inl ⟨queued, posted⟩⟩
  obtain ⟨task, howner, hpath, waiting⟩ := start.rounds io rounds
  rcases waiting with ⟨still, _⟩ | ⟨_, done⟩
  · simp [unpacked] at still
  · rw [List.cons_append, run_cons, run_concat]
    change Config.getOption (post _).mPrefs .resLocalDataDir = .ok dataPath
    rw [post_eq _ done, howner, hpath]
    exact Config.getOption_setOption_self _ _ _

/-- Updates one after the other, each with its destination and the state it leaves. Between two
of them anything may happen that keeps the stored directory. -/
inductive Updates (io : Schedule) : Launcher → List (String × Launcher) → Prop
  | nil (s : Launcher) : Updates io s []
  | cons {s before after : Launcher} {dataPath : String} {later : List (String × Launcher)}
      (kept : Config.getOption before.mPrefs .resLocalDataDir =
        Config.getOption s.mPrefs .resLocalDataDir)
      (update : Update io before dataPath after) (rest : Updates io after later) :
      Updates io s ((dataPath, after) :: later)

/-- Each update strips the directory the one before it has stored. -/
theorem Updates.destinations {io : Schedule} {start : Launcher} {updates : List (String × Launcher)}
    (h : Updates io start updates) {localDataDir : String}
    (dir : Config.getOption start.mPrefs .resLocalDataDir = .ok localDataDir) :
    updates.map Prod.fst = List.iterate unpackPath (unpackPath localDataDir) updates.length := by
  induction h generalizing localDataDir with
  | nil s => rfl
  | cons kept update rest ih =>
    obtain ⟨stored, hstored, rfl, written⟩ := update.directory
    rw [kept, dir] at hstored
    obtain rfl := Except.ok.inj hstored
    rw [List.map_cons, List.length_cons, List.iterate, ih written]

theorem Updates.stored {io : Schedule} {start : Launcher} {updates : List (String × Launcher)}
    (h : Updates io start updates) : ∀ update ∈ updates,
      Config.getOption update.2.mPrefs .resLocalDataDir = .ok update.1 := by
  induction h with
  | nil s => simp
  | cons kept update rest ih =>
    obtain ⟨_, _, _, written⟩ := update.directory
    intro other mem
    rcases List.mem_cons.mp mem with rfl | later
    · exact written
    · exact ih other later

def KeepsDataDir (root : String) (updates : List (String × Launcher)) : Prop :=
  ∀ update ∈ updates, update.1 = root ∧
    Config.getOption update.2.mPrefs .resLocalDataDir = .ok (root ++ "/data")

/-- From the directory `ConfigActivity` stores for `root`, the data directory is kept by no
update at all. -/
theorem keepsDataDir_iff {io : Schedule} {start : Launcher} {updates : List (String × Launcher)}
    {root : String} (dir : Config.getOption start.mPrefs .resLocalDataDir = .ok (root ++ "/data"))
    (h : Updates io start updates) : KeepsDataDir root updates ↔ updates.length = 0 := by
  constructor
  · intro keeps
    cases updates with
    | nil => rfl
    | cons first later =>
      have destination := (List.cons.inj (h.destinations dir)).1
      obtain ⟨_, kept⟩ := keeps first (by simp)
      rw [h.stored first (by simp), destination, unpackPath_append] at kept
      have longer := congrArg String.length (Except.ok.inj kept)
      simp [String.length_append] at longer
  · intro none
    rw [List.length_eq_zero_iff.mp none]
    intro update mem
    simp at mem

end Launcher

section Concrete

attribute [local instance] emulator

def upgradedPhone : Launcher :=
  run (Launcher.step .quiet) (.equipped (.release [1] (some "7c3f")))
    (.pickDirectory "/sdcard/OpenApoc" :: List.replicate 6 .background ++
      [.post, .upgrade (.release [2] (some "5e01"))])

def updatedPhone : Launcher :=
  run (Launcher.step .quiet) upgradedPhone
    (.create true :: List.replicate 6 .background ++ [.post])

theorem upgradedPhone_update :
    Launcher.Update .quiet upgradedPhone "/sdcard/OpenApoc" updatedPhone :=
  ⟨by decide +kernel, .create true, 6, by simp [LauncherEvent.check?], by decide +kernel,
    by decide +kernel, rfl⟩

theorem keepsDataDir_upgradedPhone :
    Launcher.KeepsDataDir "/sdcard/OpenApoc" [("/sdcard/OpenApoc", updatedPhone)] ↔
      [("/sdcard/OpenApoc", updatedPhone)].length = 0 := by
  have stored : Config.getOption upgradedPhone.mPrefs .resLocalDataDir =
      .ok ("/sdcard/OpenApoc" ++ "/data") := by decide +kernel
  exact Launcher.keepsDataDir_iff stored (.cons rfl upgradedPhone_update (.nil _))

/-- One update leaves the directory that holds `data` in place of `data` itself. -/
theorem not_keepsDataDir_upgradedPhone :
    Config.getOption upgradedPhone.mPrefs .resLocalDataDir = .ok ("/sdcard/OpenApoc" ++ "/data") ∧
      Launcher.Update .quiet upgradedPhone "/sdcard/OpenApoc" updatedPhone ∧
      ¬Launcher.KeepsDataDir "/sdcard/OpenApoc" [("/sdcard/OpenApoc", updatedPhone)] := by
  refine ⟨by decide +kernel, upgradedPhone_update, ?_⟩
  intro keeps
  have stored : Config.getOption updatedPhone.mPrefs .resLocalDataDir = .ok "/sdcard/OpenApoc" := by
    decide +kernel
  have kept := (keeps _ (List.mem_singleton.mpr rfl)).2
  rw [stored] at kept
  exact absurd kept (by decide)

end Concrete

end OpenApocLauncher
