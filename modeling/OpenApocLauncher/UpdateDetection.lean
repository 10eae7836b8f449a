import OpenApocLauncher.Preloader
import OpenApocLauncher.UnpackRecord

namespace OpenApocLauncher

open AssetUnzipper Effects PreloaderActivity

/-- The map from archive names to hash texts that a record or a bundle stands for. -/
def hashMap (hash : String → String) (names : List String) : String → Option String :=
  fun assetName => if assetName ∈ names then some (hash assetName) else none

theorem hashMap_eq_iff {hash hash' : String → String} {names names' : List String} :
    hashMap hash names = hashMap hash' names' ↔
      (∀ assetName, assetName ∈ names ↔ assetName ∈ names') ∧
        ∀ assetName ∈ names, hash assetName = hash' assetName := by
  constructor
  · intro same
    have at' := fun assetName => congrFun same assetName
    have mem : ∀ assetName, assetName ∈ names ↔ assetName ∈ names' := by
      intro assetName
      have h := at' assetName
      by_cases inFirst : assetName ∈ names <;> by_cases inSecond : assetName ∈ names' <;>
        simp_all [hashMap]
    refine ⟨mem, ?_⟩
    intro assetName inFirst
    have h := at' assetName
    simpa [hashMap, inFirst, (mem assetName).mp inFirst] using h
  · rintro ⟨mem, values⟩
    funext assetName
    by_cases inFirst : assetName ∈ names
    · simp [hashMap, inFirst, (mem assetName).mp inFirst, values assetName inFirst]
    · have inSecond : assetName ∉ names' := fun h => inFirst ((mem assetName).mpr h)
      simp [hashMap, inFirst, inSecond]

theorem hashLine_inj {assetName assetName' hash hash' : String} (h : ':' ∉ hash.toList)
    (h' : ':' ∉ hash'.toList) (same : hashLine assetName hash = hashLine assetName' hash') :
    assetName = assetName' ∧ hash = hash' :=
  Text.join_inj h h' same

def recordLines (hash : String → String) (names : List String) : Finset String :=
  (names.map fun assetName => hashLine assetName (hash assetName)).toFinset

theorem mem_recordLines {hash : String → String} {names : List String} {line : String} :
    line ∈ recordLines hash names ↔
      ∃ assetName ∈ names, hashLine assetName (hash assetName) = line := by
  simp [recordLines]

theorem recordLines_congr {hash hash' : String → String} {names names' : List String}
    (mem : ∀ assetName, assetName ∈ names ↔ assetName ∈ names')
    (values : ∀ assetName ∈ names, hash assetName = hash' assetName) :
    recordLines hash names = recordLines hash' names' := by
  ext line
  rw [mem_recordLines, mem_recordLines]
  constructor
  · rintro ⟨assetName, h, rfl⟩
    exact ⟨assetName, (mem assetName).mp h, by rw [values assetName h]⟩
  · rintro ⟨assetName, h, rfl⟩
    have h := (mem assetName).mpr h
    exact ⟨assetName, h, by rw [values assetName h]⟩

theorem recordLines_member {hash hash' : String → String} {names names' : List String}
    (plain : ∀ assetName ∈ names, ':' ∉ (hash assetName).toList)
    (plain' : ∀ assetName ∈ names', ':' ∉ (hash' assetName).toList)
    (same : recordLines hash names = recordLines hash' names') {assetName : String}
    (h : assetName ∈ names) : assetName ∈ names' ∧ hash assetName = hash' assetName := by
  have line : hashLine assetName (hash assetName) ∈ recordLines hash' names' :=
    same ▸ mem_recordLines.mpr ⟨assetName, h, rfl⟩
  obtain ⟨other, ho, joined⟩ := mem_recordLines.mp line
  obtain ⟨rfl, values⟩ := hashLine_inj (plain' other ho) (plain assetName h) joined
  exact ⟨ho, values.symm⟩

/-- Records of hashes without a colon are equal exactly when their maps are. -/
theorem recordLines_eq_iff {hash hash' : String → String} {names names' : List String}
    (plain : ∀ assetName ∈ names, ':' ∉ (hash assetName).toList)
    (plain' : ∀ assetName ∈ names', ':' ∉ (hash' assetName).toList) :
    recordLines hash names = recordLines hash' names' ↔
      hashMap hash names = hashMap hash' names' := by
  rw [hashMap_eq_iff]
  constructor
  · intro same
    have forward : ∀ {assetName}, assetName ∈ names →
        assetName ∈ names' ∧ hash assetName = hash' assetName :=
      recordLines_member plain plain' same
    have back : ∀ {assetName}, assetName ∈ names' →
        assetName ∈ names ∧ hash' assetName = hash assetName :=
      recordLines_member plain' plain same.symm
    exact ⟨fun assetName => ⟨fun h => (forward h).1, fun h => (back h).1⟩,
      fun assetName h => (forward h).2⟩
  · rintro ⟨mem, values⟩
    exact recordLines_congr mem values

section Detection

variable [Device]

theorem bundledHashes_eq (view : View) (listed : view.listed = true) :
    bundledHashes view = recordLines (getAssetHash view.assets) (dataZips view.assets) := by
  ext line
  simp [bundledHashes, getAssetDataZips, listed, mem_recordLines, dataZips]

theorem unzipAssets_getOptionSet {io : Schedule} {assets : Bundle} {path : String}
    {st : UnzipState} {done : List String}
    (h : StopsAfter io assets path { st with assetHashes := [] } done) :
    Config.getOptionSet (final (unzipAssets io assets path) st).mPrefs .androidDataHash =
      .ok (recordLines (getAssetHash assets) done) := by
  rw [unzipAssets_record io assets path h, Config.getOptionSet_setOptionSet_self]
  simp [assetHashSet, hashesOf, recordLines, Function.comp_def]

theorem needsUpdating_after_unpack {io : Schedule} {assets : Bundle} {path : String}
    {st : UnzipState} {done : List String} {view : View} {mPrefs : Preferences}
    (stops : StopsAfter io assets path { st with assetHashes := [] } done)
    (plain : ∀ assetName ∈ done, ':' ∉ (getAssetHash assets assetName).toList)
    (plain' : ∀ assetName ∈ dataZips view.assets, ':' ∉ (getAssetHash view.assets assetName).toList)
    (kept : Config.getOptionSet mPrefs .androidDataHash =
      Config.getOptionSet (final (unzipAssets io assets path) st).mPrefs .androidDataHash)
    (listed : view.listed = true)
    (iso : eitherExists view mPrefs .resLocalCdPath .resSystemCdPath = .ok true) :
    (needsUpdating view mPrefs = .ok false ↔
        hashMap (getAssetHash view.assets) (dataZips view.assets) =
          hashMap (getAssetHash assets) done) ∧
      (needsUpdating view mPrefs = .ok true ↔
        hashMap (getAssetHash view.assets) (dataZips view.assets) ≠
          hashMap (getAssetHash assets) done) := by
  have record := kept.trans (unzipAssets_getOptionSet stops)
  rw [needsUpdating_of_record iso record, bundledHashes_eq view listed, ne_eq,
    ← recordLines_eq_iff plain' plain]
  by_cases same : recordLines (getAssetHash assets) done =
      recordLines (getAssetHash view.assets) (dataZips view.assets)
  · simp [same]
  · simp [same, Ne.symm same]

theorem hashMap_prefix_eq_iff {assets : Bundle} {done : List String}
    (isPrefix : done <+: dataZips assets) :
    hashMap (getAssetHash assets) (dataZips assets) = hashMap (getAssetHash assets) done ↔
      done = dataZips assets := by
  constructor
  · intro same
    obtain ⟨rest, split⟩ := isPrefix
    have mem := (hashMap_eq_iff.mp same).1
    have distinct := dataZips_nodup assets
    rw [← split] at distinct mem ⊢
    cases rest with
    | nil => simp
    | cons next rest =>
      have earlier : next ∈ done := (mem next).mp (by simp)
      exact absurd rfl ((List.nodup_append.mp distinct).2.2 next earlier next (by simp))
  · rintro rfl
    rfl

/-- Whatever part of the bundle `b0` an unpack finished: an update to `b1` is found unneeded
exactly when the archives and hashes of `b1` are those of that part, and for `b0` itself
exactly when nothing was left. -/
theorem updateDetection_exact {io : Schedule} {b0 b1 : Bundle} {path : String}
    {st : UnzipState} {done : List String} {fileExists : String → Bool} {later : Preferences}
    (stops : StopsAfter io b0 path { st with assetHashes := [] } done)
    (plain0 : ∀ assetName ∈ dataZips b0, ':' ∉ (getAssetHash b0 assetName).toList)
    (plain1 : ∀ assetName ∈ dataZips b1, ':' ∉ (getAssetHash b1 assetName).toList)
    (kept : Config.getOptionSet later .androidDataHash =
      Config.getOptionSet (final (unzipAssets io b0 path) st).mPrefs .androidDataHash)
    (iso : eitherExists ⟨fileExists, b1, true⟩ later .resLocalCdPath .resSystemCdPath = .ok true) :
    (needsUpdating ⟨fileExists, b1, true⟩ later = .ok false ↔
        hashMap (getAssetHash b1) (dataZips b1) = hashMap (getAssetHash b0) done) ∧
      (needsUpdating ⟨fileExists, b1, true⟩ later = .ok true ↔
        hashMap (getAssetHash b1) (dataZips b1) ≠ hashMap (getAssetHash b0) done) ∧
      (b1 = b0 →
        (needsUpdating ⟨fileExists, b1, true⟩ later = .ok false ↔ done = dataZips b0)) := by
  have isPrefix := stops.isPrefix
  have plainDone := fun assetName (h : assetName ∈ done) => plain0 assetName (isPrefix.subset h)
  obtain ⟨unneeded, needed⟩ :=
    needsUpdating_after_unpack stops plainDone plain1 kept rfl iso
  refine ⟨unneeded, needed, ?_⟩
  rintro rfl
  exact unneeded.trans (hashMap_prefix_eq_iff isPrefix)

end Detection

def UnzipState.fresh : UnzipState := ⟨FileTree.empty, 0, Preferences.empty, []⟩

section Concrete

attribute [local instance] emulator

theorem updateDetection_exact_release :
    (needsUpdating ⟨fun _ => true, .release [1, 2] (some "5e01"), true⟩
          (final (unzipAssets .quiet (.release [1] (some "7c3f")) "/sdcard/apoc") .fresh).mPrefs =
        .ok true ↔
      hashMap (getAssetHash (.release [1, 2] (some "5e01")))
          (dataZips (.release [1, 2] (some "5e01"))) ≠
        hashMap (getAssetHash (.release [1] (some "7c3f"))) ["data.zip"]) := by
  have stops : StopsAfter .quiet (.release [1] (some "7c3f")) "/sdcard/apoc"
      { UnzipState.fresh with assetHashes := [] } ["data.zip"] :=
    .complete (by decide +kernel) (by decide +kernel)
  exact (updateDetection_exact stops (by decide +kernel) (by decide +kernel) rfl
    (by decide +kernel)).2.1

end Concrete

end OpenApocLauncher
