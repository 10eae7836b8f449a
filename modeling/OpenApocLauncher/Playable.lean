import OpenApocLauncher.Convergence
import OpenApocLauncher.LaunchGate
import OpenApocLauncher.TypedStore

namespace OpenApocLauncher

open AssetUnzipper Effects Machine Overlay
open PreloaderActivity (EitherExists eitherExists eitherExists_true needsUpdating needsUpdating_of_record
  bundledHashes checkSanity_run sanityActions unpackPath)

theorem Touched.exists {path : String} {entries : List ZipEntry}
    {tree tree' : FileTree String (List UInt8)} (touched : Touched path entries tree tree')
    {place : FilePath} (there : tree.exists? place = true) : tree'.exists? place = true := by
  rw [FileTree.exists?, Option.isSome_iff_ne_none] at there ⊢
  rcases touched place with same | ⟨_, ⟨bytes, file⟩, _⟩ | ⟨_, made, _⟩
  · rwa [same]
  · simp [file]
  · simp [made]

/-- The bundle has a file in the directory, when it is unpacked to the path. -/
def Bundle.Provides [Device] (assets : Bundle) (path dir : String) : Prop :=
  ∃ ze ∈ assets.allEntries, ze.isDirectory = false ∧ FilePath.resolve dir <:+ ze.target path

theorem Overlaid.provided [Device] {assets : Bundle} {path dir : String}
    {tree tree' : FileTree String (List UInt8)} (laid : Overlaid path assets.allEntries tree tree')
    (provides : assets.Provides path dir) : tree'.exists? (FilePath.resolve dir) = true := by
  obtain ⟨ze, mem, file, above⟩ := provides
  have written : lastWrite (fileWrites path assets.allEntries) (ze.target path) ≠ none :=
    lastWrite_ne_none (mem_fileWrites.mpr ⟨ze, mem, file, rfl⟩)
  obtain ⟨node, last⟩ := Option.ne_none_iff_exists'.mp written
  have there : tree'.node (ze.target path) ≠ none := by
    rw [laid.written last]
    simp
  rw [FileTree.exists?, Option.isSome_iff_ne_none]
  by_cases same : FilePath.resolve dir = ze.target path
  · rwa [same]
  · rw [tree'.directory_above above same there]
    simp

/-- What neither changes the files nor the version nor the two paths. -/
def LauncherEvent.Undemanding : LauncherEvent → Prop
  | .create listed => listed = true
  | .activityResult _ listed => listed = true
  | .background | .post | .kill => True
  | .pickDirectory _ | .selectIso _ | .upgrade _ | .external _ => False

namespace Launcher

section Play

variable [Device]

/-- No task is left, the game's paths exist, and the record is that of the bundle. -/
structure Playable (s : Launcher) : Prop where
  idle : s.queue = [] ∧ s.posted = []
  typed : StoredTyped s.mPrefs
  iso : EitherExists (s.view true) s.mPrefs .resLocalCdPath .resSystemCdPath
  data : EitherExists (s.view true) s.mPrefs .resLocalDataDir .resSystemDataDir
  record : Config.getOptionSet s.mPrefs .androidDataHash =
    .ok (recordLines (getAssetHash s.assets) (dataZips s.assets))

/-- A check that starts the game and nothing else. -/
def PlaysDirectly (io : Schedule) (s : Launcher) (event : LauncherEvent) : Prop :=
  event.check? ≠ none → ∃ configs ≤ s.configs,
    s.step io event = { s with configs, games := s.games + 1 }

namespace Playable

variable {s : Launcher}

theorem runUi (h : Playable s) (configs : Nat) :
    { s with configs }.runUi (PreloaderActivity.checkSanity (s.view true)) =
      { s with configs, games := s.games + 1 } := by
  have iso := eitherExists_true.mpr ⟨h.typed.getOption (by decide), h.iso⟩
  have data := eitherExists_true.mpr ⟨h.typed.getOption (by decide), h.data⟩
  obtain ⟨localDataDir, dir⟩ :=
    h.typed.getOption (show ConfigOption.resLocalDataDir ≠ .androidDataHash by decide)
  have upToDate : needsUpdating (s.view true) s.mPrefs = .ok false := by
    have same : bundledHashes (s.view true) = recordLines (getAssetHash s.assets) (dataZips s.assets) :=
      bundledHashes_eq (s.view true) rfl
    rw [needsUpdating_of_record iso h.record, same]
    simp
  have run : (PreloaderActivity.checkSanity (s.view true)).run ⟨s.mPrefs, []⟩ =
      .ok () ⟨s.mPrefs, [] ++ sanityActions true true false localDataDir⟩ :=
    checkSanity_run iso data upToDate dir
  simp only [Launcher.runUi, run]
  rfl

theorem playsDirectly (h : Playable s) (io : Schedule) {event : LauncherEvent}
    (undemanding : event.Undemanding) : s.PlaysDirectly io event := by
  intro check
  cases event with
  | create listed =>
    obtain rfl : listed = true := undemanding
    exact ⟨s.configs, le_rfl, h.runUi s.configs⟩
  | activityResult requestCode listed =>
    obtain rfl : listed = true := undemanding
    by_cases config : requestCode = REQCODE_CONFIG
    · refine ⟨s.configs - 1, Nat.sub_le _ _, ?_⟩
      simp only [step, onActivityResult, if_pos config]
      exact h.runUi (s.configs - 1)
    · simp [LauncherEvent.check?, config] at check
  | background => simp [LauncherEvent.check?] at check
  | post => simp [LauncherEvent.check?] at check
  | kill => simp [LauncherEvent.check?] at check
  | _ => exact undemanding.elim

theorem counts (h : Playable s) (configs games : Nat) : Playable { s with configs, games } :=
  ⟨h.idle, h.typed, h.iso, h.data, h.record⟩

theorem step (h : Playable s) (io : Schedule) {event : LauncherEvent}
    (undemanding : event.Undemanding) : Playable (s.step io event) := by
  by_cases check : event.check? = none
  · cases event with
    | create listed => simp [LauncherEvent.check?] at check
    | activityResult requestCode listed =>
      have notConfig : requestCode ≠ REQCODE_CONFIG := by
        intro config
        simp [LauncherEvent.check?, config] at check
      simp only [Launcher.step, onActivityResult, if_neg notConfig]
      split
      next => exact h.counts s.configs (s.games - 1)
      next => exact h
    | background =>
      have stays : s.background io = s := by simp [Launcher.background, h.idle.1]
      change Playable (s.background io)
      rwa [stays]
    | post =>
      have stays : s.post = s := by simp [Launcher.post, h.idle.2]
      change Playable s.post
      rwa [stays]
    | kill => exact ⟨⟨rfl, rfl⟩, h.typed, h.iso, h.data, h.record⟩
    | _ => exact undemanding.elim
  · obtain ⟨configs, _, stepped⟩ := h.playsDirectly io undemanding check
    rw [stepped]
    exact h.counts configs (s.games + 1)

/-- As long as nothing is demanded, every check starts the game and nothing else. -/
theorem run (h : Playable s) (io : Schedule) {events : List LauncherEvent}
    (undemanding : ∀ event ∈ events, event.Undemanding) :
    Guarded (Launcher.step io) (PlaysDirectly io) s events :=
  guarded_of_invariant Playable (fun _ event mem h => h.step io (undemanding event mem)) h
    fun _ event mem h => h.playsDirectly io (undemanding event mem)

end Playable

/-- What a whole unpack of the bundle into the path leaves when it was delivered. -/
structure Settles (s : Launcher) (owner : TaskOwner) (path : String) (after : Launcher) : Prop where
  playable : Playable after
  assets : after.assets = s.assets
  configs : after.configs = s.configs
  games : after.games = s.games + (if owner = .preloader then 1 else 0)
  dataDir : Config.getOption after.mPrefs .resLocalDataDir = .ok (owner.storedDir path)
  tree : Overlaid path s.assets.allEntries s.tree after.tree

theorem settles_of_unpack (io : Schedule) {s : Launcher} {owner : TaskOwner} {path : String}
    (task : s.queue = [⟨owner, path, unpackProgram s.assets, []⟩]) (idle : s.posted = [])
    (typed : StoredTyped s.mPrefs)
    (iso : EitherExists (s.view true) s.mPrefs .resLocalCdPath .resSystemCdPath)
    (complete : Completes path ⟨s.tree, s.clock, s.mPrefs, []⟩ (io, s.assets))
    (named : owner.storedDir path ≠ "")
    (provides : s.assets.Provides path (owner.storedDir path)) :
    ∃ rounds, s.Settles owner path
      (Machine.run (step io) s (List.replicate rounds .background ++ [.post])) := by
  obtain ⟨rounds, ended, sameOwner, samePath, worked⟩ := background_unzipAssets io s task
  refine ⟨rounds, ?_⟩
  let st := unpack path ⟨s.tree, s.clock, s.mPrefs, []⟩ (io, s.assets)
  let done : Launcher :=
    { s with tree := st.tree, clock := st.clock, mPrefs := st.mPrefs, queue := [], posted := [ended] }
  have delivered : done.post = { done with
      posted := []
      mPrefs := Config.setOption done.mPrefs .resLocalDataDir (owner.storedDir path)
      games := done.games + (if owner = .preloader then 1 else 0) } := by
    rw [post_eq done (show done.posted = [ended] from rfl), sameOwner, samePath]
  have last : Machine.run (step io) s (List.replicate rounds .background ++ [.post]) = done.post := by
    rw [Machine.run_concat, worked, idle]
    rfl
  rw [last, delivered]
  have touched := unpack_touched path ⟨s.tree, s.clock, s.mPrefs, []⟩ (io, s.assets)
  have laid := complete.overlaid
  have stored := complete.mPrefs
  have kept {option : ConfigOption} (first : option ≠ .resLocalDataDir)
      (ordinary : option ≠ .androidDataHash) :
      Config.getOption (Config.setOption st.mPrefs .resLocalDataDir (owner.storedDir path)) option =
        Config.getOption s.mPrefs option := by
    apply Config.getOption_congr
    rw [Config.setOption_value_other _ _ first, stored, Config.setOptionSet_value_other _ _ ordinary]
  refine ⟨⟨⟨rfl, rfl⟩, ?_, ?_, ?_, ?_⟩, rfl, rfl, rfl, Config.getOption_setOption_self _ _ _, laid⟩
  · apply StoredTyped.setOption _ (by decide)
    change StoredTyped st.mPrefs
    rw [stored]
    exact typed.setDataHash _
  · obtain ⟨option, mem, file, read, there⟩ := iso
    obtain ⟨full, there⟩ := (view_fileExists_iff s true file).mp there
    refine ⟨option, mem, file, ?_, (view_fileExists_iff _ _ _).mpr ⟨full, touched.exists there⟩⟩
    have cd : option = .resLocalCdPath ∨ option = .resSystemCdPath := by simpa using mem
    rcases cd with rfl | rfl
    · exact (kept (by decide) (by decide)).trans read
    · exact (kept (by decide) (by decide)).trans read
  · exact ⟨.resLocalDataDir, List.mem_cons_self, owner.storedDir path,
      Config.getOption_setOption_self _ _ _,
      (view_fileExists_iff _ _ _).mpr ⟨named, laid.provided provides⟩⟩
  · rw [← complete.record]
    exact Config.getOptionSet_congr (Config.setOption_value_other _ _ (by decide))

/-- A check with everything in place but an old record starts an update and nothing else. -/
theorem checkSanity_outdated {s : Launcher} (typed : StoredTyped s.mPrefs)
    (iso : EitherExists (s.view true) s.mPrefs .resLocalCdPath .resSystemCdPath)
    (data : EitherExists (s.view true) s.mPrefs .resLocalDataDir .resSystemDataDir)
    {localDataDir : String} (dir : Config.getOption s.mPrefs .resLocalDataDir = .ok localDataDir)
    {stored : Finset String} (record : Config.getOptionSet s.mPrefs .androidDataHash = .ok stored)
    (outdated : stored ≠ recordLines (getAssetHash s.assets) (dataZips s.assets)) :
    s.checkSanity true =
      { s with queue := s.queue ++
          [⟨.preloader, unpackPath localDataDir, unpackProgram s.assets, []⟩] } := by
  have isoThere := eitherExists_true.mpr ⟨typed.getOption (by decide), iso⟩
  have dataThere := eitherExists_true.mpr ⟨typed.getOption (by decide), data⟩
  have update : needsUpdating (s.view true) s.mPrefs = .ok true := by
    have bundled : bundledHashes (s.view true) =
        recordLines (getAssetHash s.assets) (dataZips s.assets) := bundledHashes_eq (s.view true) rfl
    rw [needsUpdating_of_record isoThere record, bundled]
    simp [outdated]
  have run : (PreloaderActivity.checkSanity (s.view true)).run ⟨s.mPrefs, []⟩ =
      .ok () ⟨s.mPrefs, [] ++ sanityActions true true true localDataDir⟩ :=
    checkSanity_run isoThere dataThere update dir
  simp only [checkSanity, Launcher.runUi, run]
  rfl

/-- A directory that is picked and unpacked into whole: from then on every check starts the game
and nothing else. -/
theorem plays_after_pick (io : Schedule) {s : Launcher} {path : String}
    (idle : s.queue = [] ∧ s.posted = []) (typed : StoredTyped s.mPrefs)
    (iso : EitherExists (s.view true) s.mPrefs .resLocalCdPath .resSystemCdPath)
    (complete : Completes path ⟨s.tree, s.clock, s.mPrefs, []⟩ (io, s.assets))
    (provides : s.assets.Provides path (path ++ "/data")) :
    ∃ rounds,
      let after := run (step io) s (.pickDirectory path :: List.replicate rounds .background ++ [.post])
      s.Settles .config path after ∧
        ∀ events : List LauncherEvent, (∀ event ∈ events, event.Undemanding) →
          Guarded (step io) (PlaysDirectly io) after events := by
  have queued : (s.enqueue .config path).queue = [⟨.config, path, unpackProgram s.assets, []⟩] := by
    simp [enqueue, idle.1]
  have named : path ++ "/data" ≠ "" := by simp
  obtain ⟨rounds, settles⟩ := settles_of_unpack io queued idle.2 typed iso complete named provides
  have same : run (step io) s (.pickDirectory path :: List.replicate rounds .background ++ [.post]) =
      run (step io) (s.enqueue .config path) (List.replicate rounds .background ++ [.post]) := rfl
  refine ⟨rounds, ?_⟩
  rw [same]
  exact ⟨⟨settles.playable, settles.assets, settles.configs, settles.games, settles.dataDir,
    settles.tree⟩, fun events undemanding => settles.playable.run io undemanding⟩

/-- An upgrade to a bundle with another record costs one update at the next start, which ends in
the game; from then on every check starts the game and nothing else. -/
theorem plays_after_upgrade (io : Schedule) {s : Launcher} {assets : Bundle} {localDataDir : String}
    (playable : Playable s)
    (outdated : recordLines (getAssetHash s.assets) (dataZips s.assets) ≠
      recordLines (getAssetHash assets) (dataZips assets))
    (dir : Config.getOption s.mPrefs .resLocalDataDir = .ok localDataDir)
    (complete : Completes (unpackPath localDataDir) ⟨s.tree, s.clock, s.mPrefs, []⟩ (io, assets))
    (named : unpackPath localDataDir ≠ "")
    (provides : assets.Provides (unpackPath localDataDir) (unpackPath localDataDir)) :
    ∃ rounds,
      let upgraded := s.step io (.upgrade assets)
      let after := run (step io) upgraded
        (.create true :: List.replicate rounds .background ++ [.post])
      upgraded.Settles .preloader (unpackPath localDataDir) after ∧
        ∀ events : List LauncherEvent, (∀ event ∈ events, event.Undemanding) →
          Guarded (step io) (PlaysDirectly io) after events := by
  let upgraded := s.step io (.upgrade assets)
  let updating : Launcher := { upgraded with
    queue := [⟨.preloader, unpackPath localDataDir, unpackProgram assets, []⟩] }
  have check : upgraded.checkSanity true = updating :=
    @checkSanity_outdated _ upgraded playable.typed playable.iso playable.data _ dir _ playable.record
      outdated
  obtain ⟨rounds, settles⟩ := @settles_of_unpack _ io updating _ _ rfl rfl playable.typed playable.iso
    complete named provides
  have same : run (step io) upgraded (.create true :: List.replicate rounds .background ++ [.post]) =
      run (step io) updating (List.replicate rounds .background ++ [.post]) := by
    rw [← check]
    rfl
  refine ⟨rounds, ?_⟩
  simp only
  rw [same]
  exact ⟨⟨settles.playable, settles.assets, settles.configs, settles.games, settles.dataDir,
    settles.tree⟩, fun events undemanding => settles.playable.run io undemanding⟩

end Play

section Concrete

attribute [local instance] emulator

/-- The phone on which the first version is played. -/
def playedPhone : Launcher :=
  { equipped (.release [1] (some "7c3f")) with
    mPrefs := Config.setOptionSet Preferences.empty .androidDataHash
      (recordLines (getAssetHash (.release [1] (some "7c3f"))) (dataZips (.release [1] (some "7c3f")))) }

theorem provides_release {content : List UInt8} {md5 : Option String} {path dir : String}
    (above : FilePath.resolve dir <:+ ZipEntry.target path ⟨"data/rules.xml", content⟩) :
    (Bundle.release content md5).Provides path dir := by
  have file : Text.endsWith "data/rules.xml" "/" = false := by decide +kernel
  refine ⟨⟨"data/rules.xml", content⟩, ?_, file, above⟩
  rw [allEntries_release]
  exact List.mem_cons_of_mem _ List.mem_cons_self

theorem equipped_iso (assets : Bundle) (listed : Bool) (mPrefs : Preferences)
    (fresh : mPrefs.value ConfigOption.resLocalCdPath.key = none) :
    EitherExists ((equipped assets).view listed) mPrefs .resLocalCdPath .resSystemCdPath := by
  refine ⟨.resLocalCdPath, List.mem_cons_self, "/sdcard/OpenApoc/XCOM.cue", ?_, ?_⟩
  · rw [Config.getOption, Preferences.getString, fresh]
    rfl
  · rw [view_fileExists_iff]
    change _ ∧ (equipped (.release [] none)).tree.exists? (FilePath.resolve "/sdcard/OpenApoc/XCOM.cue") = true
    decide +kernel

theorem plays_after_pick_equipped :
    ∃ rounds,
      let s := equipped (.release [1] (some "7c3f"))
      let after := run (step .quiet) s
        (.pickDirectory "/sdcard" :: List.replicate rounds .background ++ [.post])
      s.Settles .config "/sdcard" after ∧
        ∀ events : List LauncherEvent, (∀ event ∈ events, event.Undemanding) →
          Guarded (step .quiet) (PlaysDirectly .quiet) after events := by
  apply plays_after_pick .quiet ⟨rfl, rfl⟩ StoredTyped.empty
  · exact equipped_iso _ _ _ rfl
  · unfold Completes
    decide +kernel
  · exact provides_release (by decide +kernel)

theorem plays_after_upgrade_played :
    ∃ rounds,
      let upgraded := playedPhone.step .quiet (.upgrade (.release [2] (some "5e01")))
      let after := run (step .quiet) upgraded
        (.create true :: List.replicate rounds .background ++ [.post])
      upgraded.Settles .preloader "/sdcard/OpenApoc" after ∧
        ∀ events : List LauncherEvent, (∀ event ∈ events, event.Undemanding) →
          Guarded (step .quiet) (PlaysDirectly .quiet) after events := by
  have playable : Playable playedPhone := by
    refine ⟨⟨rfl, rfl⟩, StoredTyped.empty.setDataHash _, ?_, ?_, ?_⟩
    · apply equipped_iso
      decide +kernel
    · refine ⟨.resLocalDataDir, List.mem_cons_self, "/sdcard/OpenApoc/data", by decide +kernel, ?_⟩
      rw [view_fileExists_iff]
      change _ ∧ (equipped (.release [] none)).tree.exists? (FilePath.resolve "/sdcard/OpenApoc/data") = true
      decide +kernel
    · exact Config.getOptionSet_setOptionSet_self _ _ _
  have root : unpackPath "/sdcard/OpenApoc/data" = "/sdcard/OpenApoc" := by decide +kernel
  have dir : Config.getOption playedPhone.mPrefs .resLocalDataDir = .ok "/sdcard/OpenApoc/data" := by
    decide +kernel
  rw [← root]
  apply plays_after_upgrade .quiet playable (by decide +kernel) dir
  · unfold Completes
    decide +kernel
  · decide +kernel
  · exact provides_release (by decide +kernel)

end Concrete

end Launcher

end OpenApocLauncher
