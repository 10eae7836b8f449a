import OpenApocLauncher.UpdateDetection

namespace OpenApocLauncher

open AssetUnzipper Effects PreloaderActivity

/-- An empty text tells nothing more than one that cannot be read. -/
def Bundle.HashReadable (assets : Bundle) (assetName : String) : Prop :=
  ∃ text, assets.text (assetName ++ ".md5") = some text ∧ text ≠ ""

section Noticed

variable [Device]

/-- What the texts beside the archives of two app versions are: without a colon, and the same
one only for the same content. -/
structure ChecksumTexts (b0 b1 : Bundle) : Prop where
  plain0 : ∀ assetName ∈ dataZips b0, ∀ text, b0.text (assetName ++ ".md5") = some text →
    ':' ∉ text.toList
  plain1 : ∀ assetName ∈ dataZips b1, ∀ text, b1.text (assetName ++ ".md5") = some text →
    ':' ∉ text.toList
  apart : ∀ assetName ∈ dataZips b0, assetName ∈ dataZips b1 → ∀ text,
    b0.text (assetName ++ ".md5") = some text → b1.text (assetName ++ ".md5") = some text →
      b1.entries assetName = b0.entries assetName

def ContentChanged (b0 b1 : Bundle) : Prop :=
  ∃ assetName ∈ dataZips b1, assetName ∉ dataZips b0 ∨ b1.entries assetName ≠ b0.entries assetName

omit [Device] in
theorem getAssetHash_of_readable {assets : Bundle} {assetName text : String}
    (h : assets.text (assetName ++ ".md5") = some text) : getAssetHash assets assetName = text := by
  simp [getAssetHash, h]

omit [Device] in
theorem getAssetHash_of_unreadable {assets : Bundle} {assetName : String}
    (h : ¬assets.HashReadable assetName) : getAssetHash assets assetName = "" := by
  cases found : assets.text (assetName ++ ".md5") with
  | none => simp [getAssetHash, found]
  | some text =>
    rw [getAssetHash_of_readable found]
    by_contra full
    exact h ⟨text, found, full⟩

omit [Device] in
theorem getAssetHash_no_colon {assets : Bundle} {assetName : String}
    (plain : ∀ text, assets.text (assetName ++ ".md5") = some text → ':' ∉ text.toList) :
    ':' ∉ (getAssetHash assets assetName).toList := by
  by_cases readable : assets.HashReadable assetName
  · obtain ⟨text, found, _⟩ := readable
    rw [getAssetHash_of_readable found]
    exact plain text found
  · rw [getAssetHash_of_unreadable readable]
    simp

namespace ChecksumTexts

variable {b0 b1 : Bundle}

theorem hash_eq_iff (sums : ChecksumTexts b0 b1) {assetName : String}
    (in0 : assetName ∈ dataZips b0) (in1 : assetName ∈ dataZips b1) :
    getAssetHash b1 assetName = getAssetHash b0 assetName ↔
      (b0.HashReadable assetName ↔ b1.HashReadable assetName) ∧
        (b0.HashReadable assetName → b1.entries assetName = b0.entries assetName ∧
          b1.text (assetName ++ ".md5") = b0.text (assetName ++ ".md5")) := by
  by_cases read0 : b0.HashReadable assetName <;> by_cases read1 : b1.HashReadable assetName
  · obtain ⟨text0, found0, _⟩ := id read0
    obtain ⟨text1, found1, _⟩ := id read1
    rw [getAssetHash_of_readable found0, getAssetHash_of_readable found1]
    constructor
    · rintro rfl
      have content := sums.apart assetName in0 in1 text1 found0 found1
      exact ⟨by simp [read0, read1], fun _ => ⟨content, found1.trans found0.symm⟩⟩
    · rintro ⟨_, same⟩
      rw [found0, found1] at same
      exact Option.some.inj (same read0).2
  · obtain ⟨text0, found0, full⟩ := id read0
    rw [getAssetHash_of_readable found0, getAssetHash_of_unreadable read1]
    simp [read0, read1, full.symm]
  · obtain ⟨text1, found1, full⟩ := id read1
    rw [getAssetHash_of_unreadable read0, getAssetHash_of_readable found1]
    simp [read0, read1, full]
  · rw [getAssetHash_of_unreadable read0, getAssetHash_of_unreadable read1]
    simp [read0, read1]

/-- The maps of two versions differ by a name, by a checksum that only one of them has, or where
both have one by the content or the checksum itself. -/
theorem hashMap_ne_iff (sums : ChecksumTexts b0 b1) :
    hashMap (getAssetHash b1) (dataZips b1) ≠ hashMap (getAssetHash b0) (dataZips b0) ↔
      (∃ assetName, ¬(assetName ∈ dataZips b0 ↔ assetName ∈ dataZips b1)) ∨
        ∃ assetName ∈ dataZips b0, assetName ∈ dataZips b1 ∧
          (¬(b0.HashReadable assetName ↔ b1.HashReadable assetName) ∨
            (b0.HashReadable assetName ∧ (b1.entries assetName ≠ b0.entries assetName ∨
              b1.text (assetName ++ ".md5") ≠ b0.text (assetName ++ ".md5")))) := by
  rw [ne_eq, hashMap_eq_iff, not_and_or]
  constructor
  · rintro (names | values)
    · obtain ⟨assetName, h⟩ := not_forall.mp names
      exact Or.inl ⟨assetName, fun same => h same.symm⟩
    · push Not at values
      obtain ⟨assetName, in1, differ⟩ := values
      by_cases in0 : assetName ∈ dataZips b0
      · refine Or.inr ⟨assetName, in0, in1, ?_⟩
        have parts := mt (sums.hash_eq_iff in0 in1).mpr differ
        rcases not_and_or.mp parts with readable | content
        · exact Or.inl readable
        · obtain ⟨read0, other⟩ := Classical.not_imp.mp content
          exact Or.inr ⟨read0, not_and_or.mp other⟩
      · exact Or.inl ⟨assetName, fun same => in0 (same.mpr in1)⟩
  · rintro (⟨assetName, h⟩ | ⟨assetName, in0, in1, differ⟩)
    · exact Or.inl fun names => h (names assetName).symm
    · refine Or.inr fun values => ?_
      obtain ⟨readable, content⟩ := (sums.hash_eq_iff in0 in1).mp (values assetName in1)
      rcases differ with unread | ⟨read0, other⟩
      · exact unread readable
      · obtain ⟨entries, text⟩ := content read0
        exact other.elim (absurd entries) (absurd text)

end ChecksumTexts

/-- After a complete unpack of `b0`, a changed content of `b1` is noticed exactly when the
two versions differ in a name, in which checksums can be read, or in a content or a checksum
that can be read in both. -/
theorem changedContent_noticed_iff {io : Schedule} {b0 b1 : Bundle}
    {path : String} {st : UnzipState} {fileExists : String → Bool} {later : Preferences}
    (sums : ChecksumTexts b0 b1)
    (complete : Ends (unzipLoops io b0 path) { st with assetHashes := [] })
    (kept : Config.getOptionSet later .androidDataHash =
      Config.getOptionSet (final (unzipAssets io b0 path) st).mPrefs .androidDataHash)
    (iso : eitherExists ⟨fileExists, b1, true⟩ later .resLocalCdPath .resSystemCdPath = .ok true) :
    (ContentChanged b0 b1 → needsUpdating ⟨fileExists, b1, true⟩ later = .ok true) ↔
      ¬ContentChanged b0 b1 ∨
        (∃ assetName, ¬(assetName ∈ dataZips b0 ↔ assetName ∈ dataZips b1)) ∨
        ∃ assetName ∈ dataZips b0, assetName ∈ dataZips b1 ∧
          (¬(b0.HashReadable assetName ↔ b1.HashReadable assetName) ∨
            (b0.HashReadable assetName ∧ (b1.entries assetName ≠ b0.entries assetName ∨
              b1.text (assetName ++ ".md5") ≠ b0.text (assetName ++ ".md5")))) := by
  have ends : Ends (performAll io b0 path (programUpTo b0 (dataZips b0)))
      { st with assetHashes := [] } := by
    obtain ⟨u, st', ok⟩ := complete
    exact ⟨u, st', (unzipLoops_eq_program io b0 path _).symm.trans ok⟩
  have plain0 := fun assetName in0 => getAssetHash_no_colon (sums.plain0 assetName in0)
  have plain1 := fun assetName in1 => getAssetHash_no_colon (sums.plain1 assetName in1)
  have needed := (needsUpdating_after_unpack (.complete rfl ends) plain0 plain1 kept rfl iso).2
  rw [needed, sums.hashMap_ne_iff]
  exact imp_iff_not_or

end Noticed

section Concrete

attribute [local instance] emulator

theorem release_text {content : List UInt8} {md5 : Option String} {assetName text : String}
    (h : (Bundle.release content md5).text assetName = some text) : md5 = some text := by
  unfold Bundle.release at h
  simp only at h
  split at h
  next => exact h
  next => simp at h

theorem changedContent_noticed_release :
    needsUpdating ⟨fun _ => true, .release [2] none, true⟩
      (final (unzipAssets .quiet (.release [1] (some "55a54008ad1ba589aa210d2629c1df41")) "/sdcard")
        .fresh).mPrefs = .ok true := by
  have sums : ChecksumTexts (.release [1] (some "55a54008ad1ba589aa210d2629c1df41"))
      (.release [2] none) := by
    refine ⟨?_, ?_, ?_⟩
    · intro assetName _ text found
      rw [← Option.some.inj (release_text found)]
      decide
    · intro assetName _ text found
      exact absurd (release_text found) (by simp)
    · intro assetName _ _ text _ found
      exact absurd (release_text found) (by simp)
  have changed : ContentChanged (.release [1] (some "55a54008ad1ba589aa210d2629c1df41"))
      (.release [2] none) := ⟨"data.zip", by decide +kernel, Or.inr (by decide)⟩
  refine (changedContent_noticed_iff sums (by decide +kernel) rfl (by decide +kernel)).mpr ?_ changed
  refine Or.inr (Or.inr ⟨"data.zip", by decide +kernel, by decide +kernel, Or.inl ?_⟩)
  simp [Bundle.HashReadable, Bundle.release]

/-- Both versions without a readable checksum: the new content goes unnoticed. -/
theorem changedContent_unnoticed_release :
    ContentChanged (.release [1] none) (.release [2] none) ∧
      Ends (unzipLoops .quiet (.release [1] none) "/sdcard") .fresh ∧
      needsUpdating ⟨fun _ => true, .release [2] none, true⟩
        (final (unzipAssets .quiet (.release [1] none) "/sdcard") .fresh).mPrefs = .ok false := by
  refine ⟨⟨"data.zip", by decide +kernel, Or.inr (by decide)⟩, by decide +kernel, by decide +kernel⟩

end Concrete

end OpenApocLauncher
