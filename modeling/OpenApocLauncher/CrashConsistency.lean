import OpenApocLauncher.RecordTracking

namespace OpenApocLauncher

open AssetUnzipper Effects Machine Overlay PreloaderActivity

section Run

variable [Device]

/-- With the ISO found and no update needed, every file of the bundled archives is in place under
the unpack root of the stored directory, once no unpack is in progress. -/
def Launcher.CrashConsistent (s : Launcher) : Prop :=
  s.queue = [] → s.posted = [] → dataZips s.assets ≠ [] →
    eitherExists (s.view true) s.mPrefs .resLocalCdPath .resSystemCdPath = .ok true →
      needsUpdating (s.view true) s.mPrefs = .ok false →
        ∃ localDataDir, Config.getOption s.mPrefs .resLocalDataDir = .ok localDataDir ∧
          Holds s.tree.node (s.assets.writes (FilePath.resolve (unpackPath localDataDir)))

def Launcher.Fresh (s : Launcher) (task : UnpackTask) : Prop :=
  task.todo = unpackProgram s.assets ∧ task.assetHashes = []

def Launcher.Progress (s : Launcher) (task : UnpackTask) : Prop :=
  ∃ done, done ++ task.todo = unpackProgram s.assets ∧
    Holds s.tree.node (done.flatMap (Work.writes (FilePath.resolve task.dataPath))) ∧
      Collected s.assets done task.assetHashes

theorem Launcher.Fresh.progress {s : Launcher} {task : UnpackTask} (fresh : s.Fresh task) :
    s.Progress task :=
  ⟨[], fresh.1, holds_nil _, fresh.2 ▸ collected_nil s.assets⟩

/-- The stored record is the one of the recorded version, and what followed its unpacks in the
roots they went to is still there. -/
structure History (releases : Set Bundle) (t : Tracked) : Prop where
  release : t.launcher.assets ∈ releases
  released : ∀ version, t.recorded = some version → version ∈ releases
  record : Config.getOptionSet t.launcher.mPrefs .androidDataHash =
    .ok ((t.recorded.map Bundle.record).getD ∅)
  current : t.Records t.launcher.assets → t.recorded = some t.launcher.assets
  own : t.launcher.posted ≠ [] → t.recorded = some t.launcher.assets
  files : ∀ root, ∀ write ∈ t.since root, ∃ content, write.2 = .file content
  whole : ∀ version, t.recorded = some version → ∀ root, t.Complete root →
    Follows t.launcher.tree.node (version.writes root) (t.since root)

structure Consistent (releases : Set Bundle) (t : Tracked) : Prop where
  typed : StoredTyped t.launcher.mPrefs
  history : History releases t
  head : ∀ task ∈ t.launcher.queue.head?, t.launcher.Progress task
  waiting : ∀ task ∈ t.launcher.queue.tail, t.launcher.Fresh task
  finished : t.launcher.queue = [] → ∀ task ∈ t.launcher.posted.getLast?,
    t.since (FilePath.resolve task.dataPath) = []
  settled : t.launcher.queue = [] → t.launcher.posted = [] → t.Lasts t.launcher.assets

namespace History

variable {releases : Set Bundle} {t : Tracked}

theorem initial {start : Launcher} (release : start.assets ∈ releases)
    (mPrefs : start.mPrefs = Preferences.empty) (posted : start.posted = []) :
    History releases (.fresh start) := by
  refine ⟨release, by simp [Tracked.fresh], ?_, by simp [Tracked.fresh, Tracked.Records], ?_,
    by simp [Tracked.fresh], by simp [Tracked.fresh]⟩
  · simp [Tracked.fresh, mPrefs, Config.getOptionSet, Preferences.getStringSet]
  · intro busy
    exact absurd posted busy

/-- The queue and the activities do not matter to the history. -/
theorem queued (h : History releases t) (configs games : Nat) (queue : List UnpackTask) :
    History releases { t with launcher := { t.launcher with configs, games, queue } } :=
  ⟨h.release, h.released, h.record, h.current, h.own, h.files, h.whole⟩

theorem killed (h : History releases t) :
    History releases { t with launcher := t.launcher.killed } := by
  refine ⟨h.release, h.released, h.record, h.current, ?_, h.files, ?_⟩
  · intro busy
    exact absurd rfl busy
  · intro version recorded root complete
    apply h.whole version recorded root
    rcases complete with stored | ⟨task, mem, _⟩
    · exact Or.inl stored
    · exact absurd mem List.not_mem_nil

theorem stored (h : History releases t) {mPrefs : Preferences}
    (record : Config.getOptionSet mPrefs .androidDataHash =
      Config.getOptionSet t.launcher.mPrefs .androidDataHash)
    (dir : Config.getOption mPrefs .resLocalDataDir =
      Config.getOption t.launcher.mPrefs .resLocalDataDir) :
    History releases { t with launcher := { t.launcher with mPrefs } } := by
  refine ⟨h.release, h.released, record.trans h.record, h.current, h.own, h.files, ?_⟩
  intro version recorded root complete
  apply h.whole version recorded root
  rwa [Tracked.Complete, storedRoot_congr dir] at complete

theorem external (h : History releases t) {tree : FileTree String (List UInt8)}
    (kept : ∀ root assets, t.Unpacks root assets →
      FilesKept t.launcher.tree tree (assets.writes root)) :
    History releases { t with launcher := { t.launcher with tree } } := by
  refine ⟨h.release, h.released, h.record, h.current, h.own, h.files, ?_⟩
  intro version recorded root complete
  have left := kept root version (Or.inl ⟨recorded, complete⟩)
  exact left.follows (fun _ mem => version.writes_file mem) (h.files root)
    (h.whole version recorded root complete)

theorem performed (h : History releases t) {work : Work} {root : FilePath}
    {tree : FileTree String (List UInt8)} (clock : Nat) (queue : List UnpackTask)
    (absorbs : Absorbs t.launcher.tree.node (work.writes root) tree.node) :
    History releases
      { t.wrote (work.writes root) with launcher := { t.launcher with tree, clock, queue } } := by
  refine ⟨h.release, h.released, h.record, h.current, h.own, ?_, ?_⟩
  · intro known write mem
    rcases List.mem_append.mp mem with old | new
    · exact h.files known write old
    · exact work.writes_file new
  · intro version recorded known complete
    exact absorbs.follows_append (h.whole version recorded known complete)

theorem completed (h : History releases t) {root : FilePath} {task : UnpackTask}
    (own : FilePath.resolve task.dataPath = root) (queue : List UnpackTask) {mPrefs : Preferences}
    (record : Config.getOptionSet mPrefs .androidDataHash = .ok t.launcher.assets.record)
    (dir : storedRoot mPrefs = storedRoot t.launcher.mPrefs)
    (held : Holds t.launcher.tree.node (t.launcher.assets.writes root)) :
    History releases
      { t.completed root with
        launcher := { t.launcher with mPrefs, queue, posted := t.launcher.posted ++ [task] } } := by
  refine ⟨h.release, ?_, record, fun _ => rfl, fun _ => rfl, ?_, ?_⟩
  · intro version recorded
    exact Option.some.inj recorded ▸ h.release
  · intro known write mem
    by_cases here : known = root
    · simp [Tracked.completed, here] at mem
    · simp only [Tracked.completed, Function.update_of_ne here] at mem
      exact h.files known write mem
  · intro version recorded known complete
    obtain rfl : t.launcher.assets = version := Option.some.inj recorded
    by_cases here : known = root
    · simp only [here, Tracked.completed, Function.update_self]
      exact held.follows
    · -- another root: this version was recorded before, and is still in place there
      simp only [Tracked.completed, Function.update_of_ne here]
      have before : t.recorded = some t.launcher.assets ∧ t.Complete known := by
        rcases complete with ⟨stays, stored⟩ | ⟨other, mem, same⟩
        · have there : storedRoot t.launcher.mPrefs = some known := dir.symm.trans stored
          have old := Tracked.completed_elsewhere here there stays
          exact ⟨h.current old.2, Or.inl ⟨old.1, there⟩⟩
        · rcases List.mem_append.mp mem with old | new
          · exact ⟨h.own (List.ne_nil_of_mem old), Or.inr ⟨other, old, same⟩⟩
          · obtain rfl := List.mem_singleton.mp new
            exact absurd (same.symm.trans own) here
      exact h.whole _ before.1 known before.2

theorem delivered (h : History releases t) {task : UnpackTask} {rest : List UnpackTask}
    (posted : t.launcher.posted = task :: rest) (games : Nat) {mPrefs : Preferences}
    (record : Config.getOptionSet mPrefs .androidDataHash =
      Config.getOptionSet t.launcher.mPrefs .androidDataHash)
    {elsewhere : Bool}
    (back : elsewhere = false → storedRoot mPrefs = some (FilePath.resolve task.dataPath)) :
    History releases
      { t with launcher := { t.launcher with posted := rest, mPrefs, games }, elsewhere } := by
  refine ⟨h.release, h.released, record.trans h.record, h.current, ?_, h.files, ?_⟩
  · intro _
    exact h.own (by simp [posted])
  · intro version recorded root complete
    apply h.whole version recorded root
    rcases complete with ⟨stays, stored⟩ | ⟨other, mem, same⟩
    · have root := Option.some.inj ((back stays).symm.trans stored)
      exact Or.inr ⟨task, by simp [posted], root⟩
    · exact Or.inr ⟨other, by simp [posted, show other ∈ rest from mem], same⟩

theorem lastWrite_eq (h : History releases t) (shipped : Shipped releases) {assets version : Bundle}
    (release : assets ∈ releases) (order : t.OrderKept assets) (recorded : t.recorded = some version)
    (same : version.record = assets.record) {root : FilePath}
    (stored : storedRoot t.launcher.mPrefs = some root) (path : FilePath) :
    lastWrite (version.writes root) path = lastWrite (assets.writes root) path := by
  have records : t.Records assets := by rw [Tracked.Records, recorded, Option.map_some, same]
  exact shipped.lastWrite_eq (h.released version recorded) release same
    (order records version recorded root stored) path

theorem upgraded (h : History releases t) (shipped : Shipped releases) {assets : Bundle}
    (release : assets ∈ releases) (order : t.OrderKept assets) :
    History releases
      { t.observe (.upgrade assets) with launcher := { t.launcher.killed with assets } } := by
  have died := h.killed
  by_cases records : t.Records assets
  · obtain ⟨version, recorded, same⟩ := Option.map_eq_some_iff.mp records
    rw [show t.observe (.upgrade assets) = { t with recorded := some assets } from if_pos records]
    refine ⟨release, ?_, ?_, fun _ => rfl, fun _ => rfl, h.files, ?_⟩
    · intro version' taken
      exact Option.some.inj taken ▸ release
    · refine died.record.trans ?_
      simp [recorded, same]
    · intro version' taken root complete
      obtain rfl : assets = version' := Option.some.inj taken
      rcases complete with stored | ⟨task, mem, _⟩
      · have follows := h.whole version recorded root (Or.inl stored)
        exact follows.congr (h.lastWrite_eq shipped release order recorded same stored.2)
      · exact absurd mem List.not_mem_nil
  · rw [show t.observe (.upgrade assets) = t from if_neg records]
    refine ⟨release, h.released, died.record, ?_, ?_, h.files, died.whole⟩
    · intro other
      exact absurd other records
    · intro busy
      exact absurd rfl busy

end History

namespace Consistent

variable {releases : Set Bundle} {t : Tracked}

theorem initial {start : Launcher} (release : start.assets ∈ releases)
    (mPrefs : start.mPrefs = Preferences.empty) (queue : start.queue = [])
    (posted : start.posted = []) : Consistent releases (.fresh start) := by
  refine ⟨?_, History.initial release mPrefs posted, by simp [Tracked.fresh, queue],
    by simp [Tracked.fresh, queue], by simp [Tracked.fresh], ?_⟩
  · rw [Tracked.fresh, mPrefs]
    exact StoredTyped.empty
  · intro _ _ records
    simp [Tracked.Records, Tracked.fresh] at records

theorem enqueue (h : Consistent releases t) (configs games : Nat) {added : List UnpackTask}
    (fresh : ∀ task ∈ added, t.launcher.Fresh task) :
    Consistent releases { t with
      launcher := { t.launcher with configs, games, queue := t.launcher.queue ++ added } } := by
  refine ⟨h.typed, h.history.queued configs games _, ?_, ?_, ?_, ?_⟩
  · intro task first
    cases hq : t.launcher.queue with
    | nil =>
      simp only [hq, List.nil_append] at first
      exact (fresh task (List.mem_of_mem_head? first)).progress
    | cons running rest =>
      have same : task = running := by simpa [hq, eq_comm] using first
      rw [same]
      exact h.head running (by simp [hq])
  · intro task later
    cases hq : t.launcher.queue with
    | nil =>
      simp only [hq, List.nil_append] at later
      exact fresh task (List.mem_of_mem_tail later)
    | cons running rest =>
      simp only [hq, List.cons_append, List.tail_cons, List.mem_append] at later
      rcases later with old | new
      · exact h.waiting task (by simpa [hq] using old)
      · exact fresh task new
  · intro idle task last
    obtain ⟨hq, _⟩ := List.append_eq_nil_iff.mp idle
    exact h.finished hq task last
  · intro idle silent
    obtain ⟨hq, _⟩ := List.append_eq_nil_iff.mp idle
    exact h.settled hq silent

theorem killed (h : Consistent releases t) (kept : t.launcher.Busy → t.Lasts t.launcher.assets) :
    Consistent releases { t with launcher := t.launcher.killed } := by
  refine ⟨h.typed, h.history.killed, by simp [Launcher.killed], by simp [Launcher.killed],
    by simp [Launcher.killed], ?_⟩
  intro _ _
  by_cases busy : t.launcher.Busy
  · exact kept busy
  · -- nothing was in progress: what was settled stays so
    obtain ⟨queue, posted⟩ := Launcher.not_busy_iff.mp busy
    exact h.settled queue posted

theorem lasts_of_upgrade (h : Consistent releases t) (shipped : Shipped releases) {assets : Bundle}
    (release : assets ∈ releases) (order : t.OrderKept assets)
    (kept : t.launcher.Busy ∨ assets.record ≠ t.launcher.assets.record → t.Lasts assets) :
    t.Lasts assets := by
  by_cases died : t.launcher.Busy ∨ assets.record ≠ t.launcher.assets.record
  · exact kept died
  · obtain ⟨idle, same⟩ := not_or.mp died
    have same : assets.record = t.launcher.assets.record := not_not.mp same
    obtain ⟨queue, posted⟩ := Launcher.not_busy_iff.mp idle
    intro records archives
    have own : t.Records t.launcher.assets := records.trans (congrArg some same)
    have recorded := h.history.current own
    have archives' : dataZips t.launcher.assets ≠ [] := fun none =>
      archives (shipped.dataZips_eq_nil h.history.release release same.symm none)
    obtain ⟨here, survives⟩ := h.settled queue posted own archives'
    refine ⟨here, ?_⟩
    intro root stored
    exact (survives root stored).congr
      (h.history.lastWrite_eq shipped release order recorded same.symm stored)

theorem upgraded (h : Consistent releases t) (shipped : Shipped releases) {assets : Bundle}
    (release : assets ∈ releases) (kept : EndsKept t (.upgrade assets)) :
    Consistent releases
      { t.observe (.upgrade assets) with launcher := { t.launcher.killed with assets } } := by
  have lasts := h.lasts_of_upgrade shipped release kept.2 kept.1
  refine ⟨h.typed, h.history.upgraded shipped release kept.2, by simp [Launcher.killed],
    by simp [Launcher.killed], by simp [Launcher.killed], ?_⟩
  intro _ _
  by_cases records : t.Records assets
  · rw [show t.observe (.upgrade assets) = { t with recorded := some assets } from if_pos records]
    intro _
    exact lasts records
  · rw [show t.observe (.upgrade assets) = t from if_neg records]
    exact lasts

theorem selectIso (h : Consistent releases t) (path : String) :
    Consistent releases { t with
      launcher := { t.launcher with
        mPrefs := Config.setOption t.launcher.mPrefs .resLocalCdPath path } } := by
  have record : Config.getOptionSet (Config.setOption t.launcher.mPrefs .resLocalCdPath path)
      .androidDataHash = Config.getOptionSet t.launcher.mPrefs .androidDataHash :=
    Config.getOptionSet_congr (Config.setOption_value_other _ path (by decide))
  have dir : Config.getOption (Config.setOption t.launcher.mPrefs .resLocalCdPath path)
      .resLocalDataDir = Config.getOption t.launcher.mPrefs .resLocalDataDir :=
    Config.getOption_congr (Config.setOption_value_other _ path (by decide))
  have typed : StoredTyped (Config.setOption t.launcher.mPrefs .resLocalCdPath path) :=
    h.typed.setOption (by decide) path
  generalize Config.setOption t.launcher.mPrefs .resLocalCdPath path = mPrefs at record dir typed ⊢
  refine ⟨typed, h.history.stored record dir, h.head, h.waiting, h.finished, ?_⟩
  intro idle silent records archives
  obtain ⟨here, survives⟩ := h.settled idle silent records archives
  refine ⟨here, ?_⟩
  intro root stored
  exact survives root ((storedRoot_congr dir).symm.trans stored)

theorem external (h : Consistent releases t) {tree : FileTree String (List UInt8)}
    (kept : ∀ root assets, t.Unpacks root assets →
      FilesKept t.launcher.tree tree (assets.writes root)) :
    Consistent releases { t with launcher := { t.launcher with tree } } := by
  refine ⟨h.typed, h.history.external kept, ?_, h.waiting, h.finished, h.settled⟩
  intro task first
  obtain ⟨done, split, held, collected⟩ := h.head task first
  have files := kept (FilePath.resolve task.dataPath) t.launcher.assets
    (Or.inr ⟨task, first, rfl, rfl⟩)
  rw [← unpackProgram_writes, ← split, List.flatMap_append] at files
  have part : FilesKept t.launcher.tree tree _ := fun write mem =>
    files write (List.mem_append_left _ mem)
  have follows := part.follows ?_ (by simp) held.follows
  · exact ⟨done, split, follows.holds (survives_of_eq_nil rfl), collected⟩
  · intro write mem
    obtain ⟨work, _, mem⟩ := List.mem_flatMap.mp mem
    exact work.writes_file mem

theorem delivered (h : Consistent releases t) {task : UnpackTask} {rest : List UnpackTask}
    (posted : t.launcher.posted = task :: rest) (games : Nat) {mPrefs : Preferences}
    (typed : StoredTyped mPrefs)
    (record : Config.getOptionSet mPrefs .androidDataHash =
      Config.getOptionSet t.launcher.mPrefs .androidDataHash)
    {elsewhere : Bool}
    (back : elsewhere = false → storedRoot mPrefs = some (FilePath.resolve task.dataPath))
    (last : t.launcher.queue = [] → rest = [] → elsewhere = false) :
    Consistent releases
      { t with launcher := { t.launcher with posted := rest, mPrefs, games }, elsewhere } := by
  refine ⟨typed, h.history.delivered posted games record back, h.head, h.waiting, ?_, ?_⟩
  · intro idle other mem
    apply h.finished idle other
    rw [posted]
    cases rest with
    | nil => simp at mem
    | cons next rest => simpa using mem
  · intro idle silent _ _
    have stays := last idle silent
    refine ⟨stays, ?_⟩
    intro root stored
    obtain rfl := Option.some.inj ((back stays).symm.trans stored)
    apply survives_of_eq_nil
    exact h.finished idle task (by simp [posted, show rest = [] from silent])

theorem post (h : Consistent releases t) (kept : t.launcher.LastPostKept) :
    Consistent releases { t.observe .post with launcher := t.launcher.post } := by
  cases posted : t.launcher.posted with
  | nil =>
    have idle : t.launcher.post = t.launcher := by simp [Launcher.post, posted]
    have same : t.observe .post = t := by simp [Tracked.observe, posted]
    rw [idle, same]
    exact h
  | cons task rest =>
    have same : t.observe .post = t.delivered task := by simp [Tracked.observe, posted]
    rw [Launcher.post_eq _ posted, same]
    apply h.delivered posted _ (h.typed.setOption (by decide) _)
    · exact Config.getOptionSet_congr (Config.setOption_value_other _ _ (by decide))
    · intro stays
      rw [storedRoot_of_getOption (Config.getOption_setOption_self _ _ _),
        Tracked.delivered_elsewhere.mp stays]
    · intro idle silent
      have plain := kept idle (by simp [posted, silent]) task (by simp [posted])
      exact Tracked.delivered_elsewhere.mpr (by rw [unpackPath_storedDir plain])

theorem finish (h : Consistent releases t) {task : UnpackTask} {rest : List UnpackTask}
    (queue : t.launcher.queue = task :: rest) (todo : task.todo = []) :
    Consistent releases
      { t.completed (FilePath.resolve task.dataPath) with
        launcher := { t.launcher with
          mPrefs := (storeRecord (t.launcher.unzipState task)).mPrefs
          queue := rest
          posted := t.launcher.posted ++ [task] } } := by
  have later := h.waiting
  simp only [queue, List.tail_cons] at later
  obtain ⟨done, split, held, collected⟩ := h.head task (by simp [queue])
  rw [todo, List.append_nil] at split
  rw [split, unpackProgram_writes] at held
  rw [split] at collected
  have stored : (storeRecord (t.launcher.unzipState task)).mPrefs =
      Config.setOptionSet t.launcher.mPrefs .androidDataHash t.launcher.assets.record := by
    rw [storeRecord, ← collected.record]
    rfl
  rw [stored]
  have record := Config.getOptionSet_setOptionSet_self t.launcher.mPrefs .androidDataHash
    t.launcher.assets.record
  have dir := storedRoot_congr (Config.getOption_congr
    (Config.setOptionSet_value_other t.launcher.mPrefs t.launcher.assets.record
      (show ConfigOption.resLocalDataDir ≠ .androidDataHash by decide)))
  have typed := h.typed.setDataHash t.launcher.assets.record
  generalize Config.setOptionSet t.launcher.mPrefs .androidDataHash t.launcher.assets.record =
    mPrefs at record dir typed ⊢
  refine ⟨typed, h.history.completed rfl rest record dir held, ?_, ?_, ?_, ?_⟩
  · intro next first
    exact (later next (List.mem_of_mem_head? first)).progress
  · exact fun next mem => later next (List.mem_of_mem_tail mem)
  · intro _ last mem
    obtain rfl : last = task := by simpa [eq_comm] using mem
    simp [Tracked.completed]
  · intro _ silent
    simp at silent

theorem perform {io : Schedule} (h : Consistent releases t) {task : UnpackTask}
    {rest : List UnpackTask} {work : Work} {todo : List Work} (queue : t.launcher.queue = task :: rest)
    (next : task.todo = work :: todo) {st : UnzipState} {u : Unit}
    (run : (work.perform io t.launcher.assets task.dataPath).run (t.launcher.unzipState task) = .ok u st) :
    Consistent releases
      { t.wrote (work.writes (FilePath.resolve task.dataPath)) with
        launcher := { t.launcher with
          tree := st.tree
          clock := st.clock
          mPrefs := st.mPrefs
          queue := { task with todo, assetHashes := st.assetHashes } :: rest } } := by
  have absorbs := Work.perform_absorbs io t.launcher.assets task.dataPath run
  have mPrefs : st.mPrefs = t.launcher.mPrefs :=
    Work.perform_mPrefs io t.launcher.assets task.dataPath run
  have later := h.waiting
  simp only [queue, List.tail_cons] at later
  rw [mPrefs]
  refine ⟨h.typed, h.history.performed st.clock _ absorbs, ?_, later, by simp, by simp⟩
  intro running first
  obtain ⟨done, split, held, collected⟩ := h.head task (by simp [queue])
  have same : running = { task with todo, assetHashes := st.assetHashes } := by
    simpa [eq_comm] using first
  rw [same]
  refine ⟨done ++ [work], ?_, ?_, Work.perform_collected io collected run⟩
  · rw [List.append_assoc, List.singleton_append, ← next]
    exact split
  · rw [List.flatMap_append, List.flatMap_singleton]
    exact absorbs.holds_append held

theorem background {io : Schedule} (h : Consistent releases t)
    (ends : t.launcher.BackgroundEnds io) :
    Consistent releases { t.observe .background with launcher := t.launcher.background io } := by
  unfold Launcher.background Tracked.observe
  cases queue : t.launcher.queue with
  | nil => exact h
  | cons task rest =>
    have next := ends task (by simp [queue])
    cases todo : task.todo with
    | nil =>
      simp only [todo]
      exact h.finish queue todo
    | cons work todo' =>
      simp only [todo]
      obtain ⟨u, st, run⟩ := next work (by simp [todo])
      simp only [run]
      exact h.perform queue todo run

theorem step (io : Schedule) (h : Consistent releases t) (shipped : Shipped releases)
    {event : LauncherEvent} (assumed : Undisturbed io releases t event) (kept : EndsKept t event) :
    Consistent releases (t.step io event) := by
  cases check : event.check? with
  | some listed =>
    obtain ⟨configs, games, added, after, fresh⟩ := h.typed.step_check io check
    have observed : t.observe event = t := by
      cases event with
      | create listed => rfl
      | activityResult requestCode listed => rfl
      | _ => simp [LauncherEvent.check?] at check
    rw [Tracked.step, observed, after]
    exact h.enqueue configs games fresh
  | none =>
    cases event with
    | create listed => simp [LauncherEvent.check?] at check
    | activityResult requestCode listed =>
      have other : requestCode ≠ REQCODE_CONFIG := by
        rintro rfl
        simp [LauncherEvent.check?] at check
      have counted : ∃ games, t.launcher.step io (.activityResult requestCode listed) =
          { t.launcher with games } := by
        simp only [Launcher.step, Launcher.onActivityResult, if_neg other]
        split
        next => exact ⟨_, rfl⟩
        next => exact ⟨t.launcher.games, rfl⟩
      obtain ⟨games, counted⟩ := counted
      have none : ∀ task ∈ ([] : List UnpackTask), t.launcher.Fresh task := by simp
      have silent := h.enqueue t.launcher.configs games none
      simp only [List.append_nil] at silent
      rw [Tracked.step, counted]
      exact silent
    | pickDirectory path =>
      apply h.enqueue t.launcher.configs t.launcher.games
      intro task mem
      obtain rfl := List.mem_singleton.mp mem
      exact ⟨rfl, rfl⟩
    | selectIso path => exact h.selectIso path
    | background => exact h.background assumed
    | post => exact h.post kept
    | kill => exact h.killed kept
    | upgrade assets => exact h.upgraded shipped assumed kept
    | external tree => exact h.external assumed

theorem crashConsistent (h : Consistent releases t) : t.launcher.CrashConsistent := by
  intro idle silent archives iso unneeded
  rw [needsUpdating_of_record iso h.history.record, bundledHashes_eq _ rfl] at unneeded
  have same : (t.recorded.map Bundle.record).getD ∅ = t.launcher.assets.record := by
    have equal := Except.ok.inj unneeded
    simp only [Bool.not_eq_false', decide_eq_true_eq] at equal
    exact equal
  -- the record of an install without a complete unpack is empty, that of an archive is not
  have records : t.Records t.launcher.assets := by
    cases recorded : t.recorded with
    | none =>
      rw [recorded] at same
      exact absurd same.symm (Bundle.record_ne_empty archives)
    | some version =>
      rw [recorded] at same
      rw [Tracked.Records, recorded]
      exact congrArg some same
  obtain ⟨here, survives⟩ := h.settled idle silent records archives
  obtain ⟨localDataDir, dir⟩ := h.typed.getOption (show ConfigOption.resLocalDataDir ≠ .androidDataHash by decide)
  have root := storedRoot_of_getOption dir
  have follows := h.history.whole _ (h.history.current records) _ (Or.inl ⟨here, root⟩)
  exact ⟨localDataDir, dir, follows.holds (survives _ root)⟩

end Consistent

/-- From a fresh install on, the record and the data directory stay consistent in every run
whose process ends only where the recorded files last. -/
theorem crashConsistent_run (io : Schedule) {releases : Set Bundle} (shipped : Shipped releases)
    {start : Launcher} (release : start.assets ∈ releases) (mPrefs : start.mPrefs = Preferences.empty)
    (queue : start.queue = []) (posted : start.posted = []) {events : List LauncherEvent}
    (assumed : Guarded (Tracked.step io) (Undisturbed io releases) (.fresh start) events)
    (kept : Guarded (Tracked.step io) EndsKept (.fresh start) events) :
    ∀ before, before <+: events → (run (Launcher.step io) start before).CrashConsistent := by
  intro before isPrefix
  have guarded := (assumed.and kept).upTo isPrefix
  have consistent : Consistent releases (run (Tracked.step io) (.fresh start) before) :=
    guarded.invariant _ (fun t event allowed inv => inv.step io shipped allowed.1 allowed.2)
      (Consistent.initial release mPrefs queue posted)
  have reached := consistent.crashConsistent
  rwa [Tracked.run_launcher] at reached

end Run

section Concrete

attribute [local instance] emulator

theorem shipped_release (content : List UInt8) {text : String} (plain : ':' ∉ text.toList) :
    Shipped {Bundle.release content (some text)} := by
  have zips : dataZips (.release content (some text)) = ["data.zip"] :=
    (by decide +kernel : ["data.zip", "data.zip.md5"].filter isDataZip = ["data.zip"])
  refine ⟨?_, ?_⟩
  · rintro assets rfl assetName mem
    rw [zips] at mem
    obtain rfl := List.mem_singleton.mp mem
    exact ⟨text, by simp [Bundle.release], plain⟩
  · rintro b0 rfl b1 rfl assetName _ _ _
    rfl

/-- The process dies in the middle of an unpack, and again between the two preference edits of the
update that follows. -/
def killedUpdate : List LauncherEvent :=
  [.pickDirectory "/sdcard/apoc", .background, .background, .background, .background, .kill,
    .create true, .background, .background, .background, .background, .background, .background, .kill]

theorem crashConsistent_killedUpdate :
    (run (Launcher.step .quiet) (.equipped (.release [1] (some "7c3f"))) killedUpdate).CrashConsistent := by
  have assumed : Guarded (Tracked.step .quiet)
      (Undisturbed .quiet {Bundle.release [1] (some "7c3f")})
      (.fresh (.equipped (.release [1] (some "7c3f")))) killedUpdate :=
    undisturbed_of_calm (by decide +kernel)
  have kept : Guarded (Tracked.step .quiet) EndsKept
      (.fresh (.equipped (.release [1] (some "7c3f")))) killedUpdate := by
    refine ⟨trivial, trivial, trivial, trivial, trivial, fun _ records => ?_, trivial, trivial,
      trivial, trivial, trivial, trivial, trivial, fun _ _ _ => ?_, trivial⟩
    · exact absurd records (by decide +kernel)
    · refine ⟨by decide +kernel, ?_⟩
      intro root stored
      have own : some ["OpenApoc", "sdcard"] = some root :=
        (by decide +kernel : storedRoot _ = some ["OpenApoc", "sdcard"]).symm.trans stored
      obtain rfl := Option.some.inj own
      exact survives_of_eq_nil (by decide +kernel)
  exact crashConsistent_run .quiet (shipped_release [1] (by decide)) (Set.mem_singleton _) rfl rfl rfl
    assumed kept
    killedUpdate (List.prefix_refl _)

/-- The process dies between the two preference edits of an unpack into another directory. -/
def killedPick : List LauncherEvent :=
  [.pickDirectory "/sdcard/apoc", .background, .background, .background, .background, .background,
    .background, .kill]

theorem not_crashConsistent_killedPick :
    Shipped {Bundle.release [1] (some "7c3f")} ∧
      Guarded (Tracked.step .quiet) (Undisturbed .quiet {Bundle.release [1] (some "7c3f")})
        (.fresh (.equipped (.release [1] (some "7c3f")))) killedPick ∧
      ¬(run (Launcher.step .quiet) (.equipped (.release [1] (some "7c3f"))) killedPick).CrashConsistent := by
  refine ⟨shipped_release [1] (by decide), undisturbed_of_calm (by decide +kernel), ?_⟩
  intro consistent
  obtain ⟨localDataDir, dir, held⟩ := consistent rfl rfl (by decide +kernel) (by decide +kernel)
    (by decide +kernel)
  have default : Config.getOption (run (Launcher.step .quiet)
      (.equipped (.release [1] (some "7c3f"))) killedPick).mPrefs .resLocalDataDir =
        .ok "/sdcard/OpenApoc/data" := by decide +kernel
  obtain rfl := Except.ok.inj (dir.symm.trans default)
  have there := held ["rules.xml", "data", "OpenApoc", "sdcard"] (.file [1]) (by decide +kernel)
  exact absurd there (by decide +kernel)

end Concrete

end OpenApocLauncher
