import OpenApocLauncher.TypedStore
import OpenApocLauncher.UnpackOverlay

namespace OpenApocLauncher

open AssetUnzipper Effects Machine Overlay PreloaderActivity

/-- What the app versions of a run ship: a readable checksum beside each archive, without a
colon and different for different archives. -/
structure Shipped [Device] (releases : Set Bundle) : Prop where
  readable : ∀ assets ∈ releases, ∀ assetName ∈ dataZips assets,
    ∃ text, assets.text (assetName ++ ".md5") = some text ∧ ':' ∉ text.toList
  apart : ∀ b0 ∈ releases, ∀ b1 ∈ releases, ∀ assetName ∈ dataZips b0, assetName ∈ dataZips b1 →
    b0.text (assetName ++ ".md5") = b1.text (assetName ++ ".md5") →
      b0.entries assetName = b1.entries assetName

/-- The hashes are those of the archives that these steps finished. -/
def Collected (assets : Bundle) (done : List Work) (assetHashes : List (String × String)) : Prop :=
  ∀ assetName hash, (assetName, hash) ∈ assetHashes ↔
    Work.closeAsset assetName ∈ done ∧ hash = getAssetHash assets assetName

theorem collected_nil (assets : Bundle) : Collected assets [] [] := by
  simp [Collected]

theorem Work.perform_collected (io : Schedule) {assets : Bundle} {path : String} {done : List Work}
    {work : Work} {st st' : UnzipState} {u : Unit} (collected : Collected assets done st.assetHashes)
    (h : (work.perform io assets path).run st = .ok u st') :
    Collected assets (done ++ [work]) st'.assetHashes := by
  have skipped (other : ∀ assetName, work ≠ .closeAsset assetName)
      (kept : st'.assetHashes = st.assetHashes) :
      Collected assets (done ++ [work]) st'.assetHashes := by
    intro assetName hash
    rw [kept, collected assetName hash]
    simp [(other assetName).symm]
  cases work with
  | list =>
    obtain ⟨_, rfl⟩ := attempt_ok io h
    exact skipped (by simp) rfl
  | openAsset opened =>
    obtain ⟨_, rfl⟩ := attempt_ok io h
    exact skipped (by simp) rfl
  | entry ze =>
    obtain ⟨_, st₁, first, rest⟩ := bind_ok h
    obtain ⟨_, rfl⟩ := attempt_ok io first
    have kept := unzipEntry_sameRecords io path ze st.advance
    rw [final_of_ok rest] at kept
    exact skipped (by simp) kept.2
  | closeAsset closed =>
    obtain ⟨_, st₁, first, rest⟩ := bind_ok h
    obtain ⟨_, rfl⟩ := attempt_ok io first
    cases rest
    intro assetName hash
    have old := collected assetName hash
    simp only [putHash, UnzipState.advance, List.mem_append, List.mem_filter, List.mem_singleton,
      Prod.mk.injEq, decide_eq_true_eq, Work.closeAsset.injEq, old]
    -- an archive that is closed twice has the same hash both times
    constructor
    · rintro (⟨⟨closed, value⟩, _⟩ | ⟨rfl, value⟩)
      · exact ⟨Or.inl closed, value⟩
      · exact ⟨Or.inr rfl, value⟩
    · rintro ⟨before | rfl, value⟩
      · by_cases same : assetName = closed
        · exact Or.inr ⟨same, same ▸ value⟩
        · exact Or.inl ⟨⟨before, value⟩, same⟩
      · exact Or.inr ⟨rfl, value⟩

section Versions

variable [Device]

def Bundle.record (assets : Bundle) : Finset String :=
  recordLines (getAssetHash assets) (dataZips assets)

theorem mem_unpackProgram_closeAsset {assets : Bundle} {assetName : String} :
    Work.closeAsset assetName ∈ unpackProgram assets ↔ assetName ∈ dataZips assets := by
  simp [unpackProgram, assetWork]

theorem Collected.record {assets : Bundle} {assetHashes : List (String × String)}
    (collected : Collected assets (unpackProgram assets) assetHashes) :
    assetHashSet assetHashes = assets.record := by
  ext line
  simp only [assetHashSet, List.mem_toFinset, List.mem_map, Prod.exists, Bundle.record,
    mem_recordLines]
  constructor
  · rintro ⟨assetName, hash, mem, rfl⟩
    obtain ⟨closed, rfl⟩ := (collected assetName hash).mp mem
    exact ⟨assetName, mem_unpackProgram_closeAsset.mp closed, rfl⟩
  · rintro ⟨assetName, zip, rfl⟩
    exact ⟨assetName, _, (collected assetName _).mpr ⟨mem_unpackProgram_closeAsset.mpr zip, rfl⟩, rfl⟩

theorem Bundle.record_ne_empty {assets : Bundle} (archives : dataZips assets ≠ []) :
    assets.record ≠ ∅ := by
  obtain ⟨assetName, inside⟩ := List.exists_mem_of_ne_nil _ archives
  have line : hashLine assetName (getAssetHash assets assetName) ∈ assets.record :=
    mem_recordLines.mpr ⟨assetName, inside, rfl⟩
  exact Finset.ne_empty_of_mem line

/-- No file of one archive is a file of another one, too. -/
def Bundle.ApartUnder (assets : Bundle) (root : FilePath) : Prop :=
  (dataZips assets).Pairwise fun assetName other =>
    ∀ write ∈ (assets.entries assetName).flatMap (ZipEntry.writes root),
      ∀ write' ∈ (assets.entries other).flatMap (ZipEntry.writes root), write.1 ≠ write'.1

/-- Versions with the same record have the same archives. -/
theorem Shipped.entries_eq {releases : Set Bundle} (shipped : Shipped releases) {b0 b1 : Bundle}
    (h0 : b0 ∈ releases) (h1 : b1 ∈ releases) (same : b0.record = b1.record) :
    (∀ assetName, assetName ∈ dataZips b0 ↔ assetName ∈ dataZips b1) ∧
      ∀ assetName ∈ dataZips b0, b0.entries assetName = b1.entries assetName := by
  have hash {assets : Bundle} (mem : assets ∈ releases) {assetName : String}
      (zip : assetName ∈ dataZips assets) :
      assets.text (assetName ++ ".md5") = some (getAssetHash assets assetName) ∧
        ':' ∉ (getAssetHash assets assetName).toList := by
    obtain ⟨text, found, plain⟩ := shipped.readable assets mem assetName zip
    have read : getAssetHash assets assetName = text := by simp [getAssetHash, found]
    exact ⟨read ▸ found, read ▸ plain⟩
  have maps := (recordLines_eq_iff (fun _ zip => (hash h0 zip).2) (fun _ zip => (hash h1 zip).2)).mp same
  obtain ⟨names, values⟩ := hashMap_eq_iff.mp maps
  refine ⟨names, ?_⟩
  intro assetName in0
  have in1 := (names assetName).mp in0
  apply shipped.apart b0 h0 b1 h1 assetName in0 in1
  rw [(hash h0 in0).1, (hash h1 in1).1, values assetName in0]

theorem Shipped.dataZips_eq_nil {releases : Set Bundle} (shipped : Shipped releases) {b0 b1 : Bundle}
    (h0 : b0 ∈ releases) (h1 : b1 ∈ releases) (same : b0.record = b1.record)
    (none : dataZips b0 = []) : dataZips b1 = [] := by
  obtain ⟨names, _⟩ := shipped.entries_eq h0 h1 same
  apply List.eq_nil_iff_forall_not_mem.mpr
  intro assetName mem
  simpa [none] using (names assetName).mpr mem

/-- The same archives, listed in the same order or without a common file, leave the same files. -/
theorem Shipped.lastWrite_eq {releases : Set Bundle} (shipped : Shipped releases) {b0 b1 : Bundle}
    (h0 : b0 ∈ releases) (h1 : b1 ∈ releases) (same : b0.record = b1.record) {root : FilePath}
    (order : dataZips b0 = dataZips b1 ∨ b1.ApartUnder root) (path : FilePath) :
    lastWrite (b0.writes root) path = lastWrite (b1.writes root) path := by
  obtain ⟨names, entries⟩ := shipped.entries_eq h0 h1 same
  have listed : b0.writes root = (dataZips b0).flatMap fun assetName =>
      (b1.entries assetName).flatMap (ZipEntry.writes root) := by
    apply List.flatMap_congr
    intro assetName in0
    rw [entries assetName in0]
  rw [listed]
  rcases order with inOrder | apart
  · rw [inOrder]
    rfl
  · have perm : (dataZips b1).Perm (dataZips b0) :=
      (List.perm_ext_iff_of_nodup (dataZips_nodup b1) (dataZips_nodup b0)).mpr
        fun assetName => (names assetName).symm
    exact (lastWrite_flatMap_perm perm apart path).symm

end Versions

/-- The files that are written are still there. -/
def FilesKept (tree tree' : FileTree String (List UInt8)) (writes : List FileWrite) : Prop :=
  ∀ write ∈ writes, ∀ content, tree.node write.1 = some (.file content) →
    tree'.node write.1 = some (.file content)

theorem FilesKept.follows {tree tree' : FileTree String (List UInt8)} {held later : List FileWrite}
    (kept : FilesKept tree tree' held) (files : ∀ write ∈ held, ∃ content, write.2 = .file content)
    (laterFiles : ∀ write ∈ later, ∃ content, write.2 = .file content)
    (follows : Follows tree.node held later) : Follows tree'.node held later := by
  intro path node written last
  obtain ⟨earlier, wrote⟩ := Option.ne_none_iff_exists'.mp written
  have isFile : ∃ content, node = .file content := by
    rcases List.mem_append.mp (lastWrite_mem last) with mem | mem
    · exact files (path, node) mem
    · exact laterFiles (path, node) mem
  obtain ⟨content, rfl⟩ := isFile
  exact kept (path, earlier) (lastWrite_mem wrote) content (follows path _ written last)

theorem unpackPath_storedDir {owner : TaskOwner} {dataPath : String}
    (plain : owner = .preloader → Text.endsWith dataPath dataSuffix = false) :
    unpackPath (owner.storedDir dataPath) = dataPath := by
  cases owner with
  | preloader => exact unpackPath_of_not_endsWith (plain rfl)
  | config => exact unpackPath_append dataPath

section Tracking

variable [Device]

/-- The unpack root of the stored directory. -/
def storedRoot (mPrefs : Preferences) : Option FilePath :=
  match Config.getOption mPrefs .resLocalDataDir with
  | .ok localDataDir => some (FilePath.resolve (unpackPath localDataDir))
  | .error _ => none

theorem storedRoot_of_getOption {mPrefs : Preferences} {localDataDir : String}
    (dir : Config.getOption mPrefs .resLocalDataDir = .ok localDataDir) :
    storedRoot mPrefs = some (FilePath.resolve (unpackPath localDataDir)) := by
  rw [storedRoot, dir]

theorem storedRoot_congr {mPrefs mPrefs' : Preferences}
    (dir : Config.getOption mPrefs' .resLocalDataDir = Config.getOption mPrefs .resLocalDataDir) :
    storedRoot mPrefs' = storedRoot mPrefs := by
  rw [storedRoot, dir, storedRoot]

namespace Launcher

/-- An unpack is queued, running, or not yet delivered. -/
def Busy (s : Launcher) : Prop := s.queue ≠ [] ∨ s.posted ≠ []

omit [Device] in
theorem not_busy_iff {s : Launcher} : ¬s.Busy ↔ s.queue = [] ∧ s.posted = [] := by
  rw [Busy, not_or, not_not, not_not]

/-- The last `onPostExecute` to be delivered is not one of the preloader for a directory that is
called `data`. -/
def LastPostKept (s : Launcher) : Prop :=
  s.queue = [] → s.posted.length = 1 →
    ∀ task ∈ s.posted, task.owner = .preloader → Text.endsWith task.dataPath dataSuffix = false

instance (s : Launcher) : Decidable s.LastPostKept :=
  inferInstanceAs (Decidable (_ → _ → ∀ task ∈ s.posted, _ → _))

end Launcher

/-- The launcher with the history of its unpacks. `recorded` is the version whose unpack last ran
to its end, or a later one with the same record; `since` is, for each root, what was written after
the last complete unpack into it. `elsewhere`: the recorded version has come into another root than
the stored one, or a directory that leads elsewhere has been stored after it. -/
structure Tracked where
  launcher : Launcher
  recorded : Option Bundle
  elsewhere : Bool
  since : FilePath → List FileWrite

def Tracked.fresh (start : Launcher) : Tracked := ⟨start, none, false, fun _ => []⟩

namespace Tracked

def Records (t : Tracked) (assets : Bundle) : Prop :=
  t.recorded.map Bundle.record = some assets.record

instance (t : Tracked) (assets : Bundle) : Decidable (t.Records assets) :=
  inferInstanceAs (Decidable (_ = _))

def wrote (t : Tracked) (writes : List FileWrite) : Tracked :=
  { t with since := fun root => t.since root ++ writes }

/-- An unpack into the root has run to its end. Of a version that is recorded already, another
copy may be in the stored root. -/
def completed (t : Tracked) (root : FilePath) : Tracked :=
  { t with
    recorded := some t.launcher.assets
    elsewhere := decide (storedRoot t.launcher.mPrefs ≠ some root) &&
      (t.elsewhere || !decide (t.Records t.launcher.assets))
    since := Function.update t.since root [] }

def delivered (t : Tracked) (task : UnpackTask) : Tracked :=
  { t with
    elsewhere := decide (FilePath.resolve (unpackPath (task.owner.storedDir task.dataPath)) ≠
      FilePath.resolve task.dataPath) }

theorem completed_elsewhere {t : Tracked} {root known : FilePath} (other : known ≠ root)
    (stored : storedRoot t.launcher.mPrefs = some known) (here : (t.completed root).elsewhere = false) :
    t.elsewhere = false ∧ t.Records t.launcher.assets := by
  have apart : decide (storedRoot t.launcher.mPrefs ≠ some root) = true := by simp [stored, other]
  simpa [completed, apart] using here

omit [Device] in
theorem delivered_elsewhere {t : Tracked} {task : UnpackTask} :
    (t.delivered task).elsewhere = false ↔
      FilePath.resolve (unpackPath (task.owner.storedDir task.dataPath)) =
        FilePath.resolve task.dataPath := by
  simp [delivered]

def observe (t : Tracked) : LauncherEvent → Tracked
  | .background =>
    match t.launcher.queue with
    | [] => t
    | task :: _ =>
      match task.todo with
      | [] => t.completed (FilePath.resolve task.dataPath)
      | work :: _ => t.wrote (work.writes (FilePath.resolve task.dataPath))
  | .post =>
    match t.launcher.posted with
    | [] => t
    | task :: _ => t.delivered task
  | .upgrade assets => if t.Records assets then { t with recorded := some assets } else t
  | _ => t

def step (io : Schedule) (t : Tracked) (event : LauncherEvent) : Tracked :=
  { t.observe event with launcher := t.launcher.step io event }

theorem run_launcher (io : Schedule) (t : Tracked) (events : List LauncherEvent) :
    (run (step io) t events).launcher = run (Launcher.step io) t.launcher events := by
  induction events generalizing t with
  | nil => rfl
  | cons event events ih =>
    rw [run_cons, run_cons, ih]
    rfl

/-- The recorded version has been unpacked into this root, and its directory is stored or waits
for its delivery. -/
def Complete (t : Tracked) (root : FilePath) : Prop :=
  (t.elsewhere = false ∧ storedRoot t.launcher.mPrefs = some root) ∨
    ∃ task ∈ t.launcher.posted, FilePath.resolve task.dataPath = root

/-- The archives of this version have been unpacked under the root, or are being unpacked. -/
def Unpacks (t : Tracked) (root : FilePath) (assets : Bundle) : Prop :=
  (t.recorded = some assets ∧ t.Complete root) ∨
    ∃ task ∈ t.launcher.queue.head?, FilePath.resolve task.dataPath = root ∧ t.launcher.assets = assets

/-- If it is this version that is recorded, then its directory is not outstanding between the two
edits of an unpack, and no file written since the unpack has replaced one of its files. -/
def Lasts (t : Tracked) (assets : Bundle) : Prop :=
  t.Records assets → dataZips assets ≠ [] →
    t.elsewhere = false ∧
      ∀ root ∈ storedRoot t.launcher.mPrefs, Survives (assets.writes root) (t.since root)

/-- A version with the recorded archives lists them in the recorded order, or they have no file in
common. -/
def OrderKept (t : Tracked) (assets : Bundle) : Prop :=
  t.Records assets → ∀ version ∈ t.recorded, ∀ root ∈ storedRoot t.launcher.mPrefs,
    dataZips version = dataZips assets ∨ assets.ApartUnder root

end Tracked

def Launcher.BackgroundEnds (io : Schedule) (s : Launcher) : Prop :=
  ∀ task ∈ s.queue.head?, ∀ work ∈ task.todo.head?,
    Ends (work.perform io s.assets task.dataPath) (s.unzipState task)

instance (io : Schedule) (s : Launcher) : Decidable (s.BackgroundEnds io) :=
  inferInstanceAs (Decidable (∀ task ∈ s.queue.head?, ∀ work ∈ task.todo.head?, _))

/-- No I/O error occurs, upgrades are among the releases, and others leave unpacked files alone. -/
def Undisturbed (io : Schedule) (releases : Set Bundle) (t : Tracked) : LauncherEvent → Prop
  | .background => t.launcher.BackgroundEnds io
  | .upgrade assets => assets ∈ releases
  | .external tree => ∀ root assets, t.Unpacks root assets →
      FilesKept t.launcher.tree tree (assets.writes root)
  | _ => True

/-- Neither an upgrade nor a change from outside, and no IOException. -/
def LauncherEvent.calm (io : Schedule) (s : Launcher) : LauncherEvent → Bool
  | .background => decide (s.BackgroundEnds io)
  | .upgrade _ => false
  | .external _ => false
  | _ => true

theorem undisturbed_of_calm {io : Schedule} {releases : Set Bundle} {t : Tracked}
    {events : List LauncherEvent}
    (calm : Guarded (Launcher.step io) (fun s event => event.calm io s = true) t.launcher events) :
    Guarded (Tracked.step io) (Undisturbed io releases) t events := by
  induction events generalizing t with
  | nil => trivial
  | cons event events ih =>
    refine ⟨?_, ih calm.2⟩
    have first := calm.1
    cases event with
    | background =>
      have ends : t.launcher.BackgroundEnds io := of_decide_eq_true first
      exact ends
    | upgrade assets => simp [LauncherEvent.calm] at first
    | external tree => simp [LauncherEvent.calm] at first
    | _ => trivial

/-- The process dies with an unpack in progress, or for another version, only where the recorded
files last; the last delivery keeps the unpack root. -/
def EndsKept (t : Tracked) : LauncherEvent → Prop
  | .kill => t.launcher.Busy → t.Lasts t.launcher.assets
  | .upgrade assets =>
    (t.launcher.Busy ∨ assets.record ≠ t.launcher.assets.record → t.Lasts assets) ∧
      t.OrderKept assets
  | .post => t.launcher.LastPostKept
  | _ => True

end Tracking

end OpenApocLauncher
