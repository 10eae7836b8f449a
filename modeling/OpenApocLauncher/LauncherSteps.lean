import OpenApocLauncher.Launcher
import OpenApocLauncher.UnpackRecord

namespace OpenApocLauncher

open AssetUnzipper Effects
open PreloaderActivity (unpackPath checkSanity_ok)

theorem Work.final_perform_mPrefs (io : Schedule) (assets : Bundle) (path : String) (work : Work) :
    Within (fun st st' => st'.mPrefs = st.mPrefs) (work.perform io assets path) := by
  have attempt : Within (fun st st' : UnzipState => st'.mPrefs = st.mPrefs) (Io.attempt io) :=
    fun st => (attempt_sameRecords io st).1
  have : IsTrans UnzipState fun st st' => st'.mPrefs = st.mPrefs :=
    ⟨fun _ _ _ first second => second.trans first⟩
  cases work with
  | list => exact attempt
  | openAsset assetName => exact attempt
  | entry ze => exact attempt.bind fun _ st => (unzipEntry_sameRecords io path ze st).1
  | closeAsset assetName => exact attempt.bind fun _ st => rfl

namespace Launcher

section Stepped

variable [Device]

/-- A task that an event adds to the queue: the unpack of a pick, or an update of the directory
that is stored. -/
def QueuedBy (s : Launcher) (event : LauncherEvent) (task : UnpackTask) : Prop :=
  task.todo = unpackProgram s.assets ∧
    (task.owner = .config ∧ event = .pickDirectory task.dataPath ∨
      task.owner = .preloader ∧ ∃ dir, Config.getOption s.mPrefs .resLocalDataDir = .ok dir ∧
        task.dataPath = unpackPath dir)

/-- All that a step can come to. -/
inductive Stepped (io : Schedule) (s : Launcher) (event : LauncherEvent) : Launcher → Prop
  | started (configs games : Nat) (added : List UnpackTask)
      (queued : ∀ task ∈ added, s.QueuedBy event task) :
      Stepped io s event { s with configs, games, queue := s.queue ++ added }
  | died (assets : Bundle) (own : assets = s.assets ∨ event = .upgrade assets) :
      Stepped io s event { s.killed with assets }
  | selected (path : String) (own : event = .selectIso path) :
      Stepped io s event { s with mPrefs := Config.setOption s.mPrefs .resLocalCdPath path }
  | changed (tree : FileTree String (List UInt8)) (own : event = .external tree) :
      Stepped io s event { s with tree }
  | recorded {task : UnpackTask} {rest : List UnpackTask} (queue : s.queue = task :: rest)
      (values : Finset String) :
      Stepped io s event { s with
        mPrefs := Config.setOptionSet s.mPrefs .androidDataHash values
        queue := rest
        posted := s.posted ++ [task] }
  /-- a step of the running task; after one that failed none is left -/
  | worked {task after : UnpackTask} {work : Work} {todo : List Work} {rest : List UnpackTask}
      (queue : s.queue = task :: rest) (own : task.todo = work :: todo)
      (owner : after.owner = task.owner) (dataPath : after.dataPath = task.dataPath)
      (left : after.todo = todo ∨ after.todo = []) :
      Stepped io s event { s with
        tree := (final (work.perform io s.assets task.dataPath) (s.unzipState task)).tree
        clock := (final (work.perform io s.assets task.dataPath) (s.unzipState task)).clock
        queue := after :: rest }
  | delivered {task : UnpackTask} {rest : List UnpackTask} (posted : s.posted = task :: rest)
      (games : Nat) :
      Stepped io s event { s with
        posted := rest
        mPrefs := Config.setOption s.mPrefs .resLocalDataDir (task.owner.storedDir task.dataPath)
        games }

theorem Stepped.counts (io : Schedule) (s : Launcher) (event : LauncherEvent) (configs games : Nat) :
    Stepped io s event { s with configs, games } := by
  have nothing : Stepped io s event { s with configs, games, queue := s.queue ++ [] } :=
    .started configs games [] (by simp)
  rwa [List.append_nil] at nothing

theorem background_stepped (io : Schedule) (s : Launcher) :
    Stepped io s .background (s.background io) := by
  unfold background
  cases queue : s.queue with
  | nil =>
    have same : Stepped io s .background s := .counts io s .background s.configs s.games
    exact same
  | cons task rest =>
    simp only
    cases work : task.todo with
    | nil => exact .recorded queue (assetHashSet task.assetHashes)
    | cons next todo =>
      have kept := next.final_perform_mPrefs io s.assets task.dataPath (s.unzipState task)
      have worked (left : List Work) (own : left = todo ∨ left = []) (assetHashes : List (String × String)) :
          Stepped io s .background { s with
            tree := (final (next.perform io s.assets task.dataPath) (s.unzipState task)).tree
            clock := (final (next.perform io s.assets task.dataPath) (s.unzipState task)).clock
            mPrefs := (final (next.perform io s.assets task.dataPath) (s.unzipState task)).mPrefs
            queue := { task with todo := left, assetHashes } :: rest } := by
        rw [kept]
        exact .worked queue work rfl rfl own
      cases run : (next.perform io s.assets task.dataPath).run (s.unzipState task) with
      | ok u st =>
        rw [final_of_ok run] at worked
        simp only [run]
        exact worked todo (Or.inl rfl) st.assetHashes
      | error e st =>
        rw [final_of_error run] at worked
        simp only [run]
        exact worked [] (Or.inr rfl) st.assetHashes

theorem check_stepped (io : Schedule) (s : Launcher) {event : LauncherEvent} {listed : Bool}
    (check : event.check? = some listed) : Stepped io s event (s.step io event) := by
  obtain ⟨configs, call⟩ := step_of_check io s check
  rw [call, runUi]
  cases run : (PreloaderActivity.checkSanity (s.view listed)).run ⟨s.mPrefs, []⟩ with
  | error e ui => exact .died s.assets (Or.inl rfl)
  | ok u ui =>
    obtain ⟨isoExists, dataExists, update, dir, _, _, _, stored, rfl⟩ := checkSanity_ok run
    obtain ⟨configs', games', issued⟩ := issue_sanityActions { s with configs } isoExists dataExists
      update dir
    simp only [List.nil_append]
    rw [issued]
    apply Stepped.started
    intro task mem
    cases update with
    | true =>
      obtain rfl := List.mem_singleton.mp mem
      exact ⟨rfl, Or.inr ⟨rfl, dir, stored, rfl⟩⟩
    | false => simp at mem

theorem post_stepped (io : Schedule) (s : Launcher) : Stepped io s .post s.post := by
  cases posted : s.posted with
  | nil =>
    have idle : s.post = s := by simp [Launcher.post, posted]
    rw [idle]
    exact .counts io s .post s.configs s.games
  | cons task rest =>
    rw [post_eq s posted]
    exact .delivered posted _

theorem step_stepped (io : Schedule) (s : Launcher) (event : LauncherEvent) :
    Stepped io s event (s.step io event) := by
  cases event with
  | create listed => exact check_stepped io s rfl
  | activityResult requestCode listed =>
    by_cases config : requestCode = REQCODE_CONFIG
    · exact check_stepped io s (if_pos config)
    · simp only [step, onActivityResult, if_neg config]
      split
      next => exact .counts io s _ s.configs (s.games - 1)
      next => exact .counts io s _ s.configs s.games
  | pickDirectory path =>
    apply Stepped.started s.configs s.games
    intro task mem
    obtain rfl := List.mem_singleton.mp mem
    exact ⟨rfl, Or.inl ⟨rfl, rfl⟩⟩
  | selectIso path => exact .selected path rfl
  | background => exact background_stepped io s
  | post => exact post_stepped io s
  | kill => exact .died s.assets (Or.inl rfl)
  | upgrade assets => exact .died assets (Or.inr rfl)
  | external tree => exact .changed tree rfl

end Stepped

section After

variable [Device]

theorem getOption_setOption_other (mPrefs : Preferences) {option other : ConfigOption} (value : String)
    (differ : other ≠ option) :
    Config.getOption (Config.setOption mPrefs option value) other = Config.getOption mPrefs other :=
  Config.getOption_congr (Config.setOption_value_other mPrefs value differ)

theorem getOption_setOptionSet_other (mPrefs : Preferences) {option other : ConfigOption}
    (values : Finset String) (differ : other ≠ option) :
    Config.getOption (Config.setOptionSet mPrefs option values) other = Config.getOption mPrefs other :=
  Config.getOption_congr (Config.setOptionSet_value_other mPrefs values differ)

/-- A step keeps an option, or it stores the directory of a task that is delivered, or the path
of an ISO. -/
theorem step_getOption (io : Schedule) (s : Launcher) (event : LauncherEvent) {option : ConfigOption}
    (ordinary : option ≠ .androidDataHash) :
    let after := Config.getOption (s.step io event).mPrefs option
    after = Config.getOption s.mPrefs option ∨
      (option = .resLocalDataDir ∧
        ∃ task ∈ s.posted, after = .ok (task.owner.storedDir task.dataPath)) ∨
      option = .resLocalCdPath ∧ ∃ path, event = .selectIso path ∧ after = .ok path := by
  have stepped := s.step_stepped io event
  generalize s.step io event = after at stepped ⊢
  cases stepped with
  | selected path own =>
    by_cases cdPath : option = .resLocalCdPath
    · subst cdPath
      exact Or.inr (Or.inr ⟨rfl, path, own, Config.getOption_setOption_self _ _ _⟩)
    · exact Or.inl (getOption_setOption_other s.mPrefs path cdPath)
  | recorded queue values => exact Or.inl (getOption_setOptionSet_other s.mPrefs values ordinary)
  | @delivered task rest posted games =>
    by_cases dataDir : option = .resLocalDataDir
    · subst dataDir
      exact Or.inr (Or.inl ⟨rfl, task, by simp [posted], Config.getOption_setOption_self _ _ _⟩)
    · exact Or.inl (getOption_setOption_other s.mPrefs _ dataDir)
  | _ => exact Or.inl rfl

/-- A task after a step was there before it, or was queued by it. -/
theorem step_tasks (io : Schedule) (s : Launcher) (event : LauncherEvent) {task : UnpackTask}
    (mem : task ∈ (s.step io event).queue ++ (s.step io event).posted) :
    (∃ old ∈ s.queue ++ s.posted, old.owner = task.owner ∧ old.dataPath = task.dataPath) ∨
      s.QueuedBy event task := by
  have stepped := s.step_stepped io event
  generalize s.step io event = after at stepped mem
  cases stepped with
  | started configs games added queued =>
    simp only [List.append_assoc, List.mem_append] at mem
    rcases mem with old | new | posted
    · exact Or.inl ⟨task, List.mem_append_left _ old, rfl, rfl⟩
    · exact Or.inr (queued task new)
    · exact Or.inl ⟨task, List.mem_append_right _ posted, rfl, rfl⟩
  | died assets => simp [killed] at mem
  | selected path => exact Or.inl ⟨task, mem, rfl, rfl⟩
  | changed tree => exact Or.inl ⟨task, mem, rfl, rfl⟩
  | recorded queue values =>
    refine Or.inl ⟨task, ?_, rfl, rfl⟩
    simp only [queue, List.mem_append, List.mem_cons, List.not_mem_nil, or_false] at mem ⊢
    tauto
  | @worked running _ _ _ _ queue _ owner dataPath =>
    rcases List.mem_append.mp mem with queued | posted
    · rcases List.mem_cons.mp queued with rfl | waiting
      · exact Or.inl ⟨running, by simp [queue], owner.symm, dataPath.symm⟩
      · exact Or.inl ⟨task, by simp [queue, waiting], rfl, rfl⟩
    · exact Or.inl ⟨task, List.mem_append_right _ posted, rfl, rfl⟩
  | delivered posted games =>
    refine Or.inl ⟨task, ?_, rfl, rfl⟩
    simp only [posted, List.mem_append, List.mem_cons] at mem ⊢
    tauto

/-- What a task has still to perform after a step it had to perform before, or it is the whole
program of the bundle. -/
theorem step_todo (io : Schedule) (s : Launcher) (event : LauncherEvent) {task : UnpackTask}
    (mem : task ∈ (s.step io event).queue) :
    (s.step io event).assets = s.assets ∧
      ((∃ old ∈ s.queue, task.todo <:+ old.todo) ∨ task.todo = unpackProgram s.assets) := by
  have stepped := s.step_stepped io event
  generalize s.step io event = after at stepped mem ⊢
  cases stepped with
  | started configs games added queued =>
    refine ⟨rfl, ?_⟩
    rcases List.mem_append.mp mem with old | new
    · exact Or.inl ⟨task, old, List.suffix_refl _⟩
    · exact Or.inr (queued task new).1
  | died assets => simp [killed] at mem
  | selected path => exact ⟨rfl, Or.inl ⟨task, mem, List.suffix_refl _⟩⟩
  | changed tree => exact ⟨rfl, Or.inl ⟨task, mem, List.suffix_refl _⟩⟩
  | recorded queue values => exact ⟨rfl, Or.inl ⟨task, by simp [queue, mem], List.suffix_refl _⟩⟩
  | @worked running _ work todo _ queue own _ _ left =>
    refine ⟨rfl, Or.inl ?_⟩
    rcases List.mem_cons.mp mem with rfl | waiting
    · refine ⟨running, by simp [queue], ?_⟩
      rcases left with same | none
      · rw [same, own]
        exact List.suffix_cons _ _
      · rw [none]
        exact List.nil_suffix
    · exact ⟨task, by simp [queue, waiting], List.suffix_refl _⟩
  | delivered posted games => exact ⟨rfl, Or.inl ⟨task, mem, List.suffix_refl _⟩⟩

end After

end Launcher

end OpenApocLauncher
