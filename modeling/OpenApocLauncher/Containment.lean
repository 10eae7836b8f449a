import OpenApocLauncher.Convergence

namespace OpenApocLauncher

open AssetUnzipper Effects

/-- Somewhere below the directory. -/
def Inside (root place : FilePath) : Prop := root <:+ place ∧ place ≠ root

/-- Nothing outside the directory has changed; itself and the directories above it may be new. -/
def StaysInside (root : FilePath) (tree tree' : FileTree String (List UInt8)) : Prop :=
  ∀ place, ¬Inside root place → tree'.node place = tree.node place ∨
    place <:+ root ∧ tree.node place = none ∧ tree'.node place = some .directory

/-- A file entry leads out of the destination, or a directory entry beside it. -/
def ZipEntry.Leaves (path : String) (ze : ZipEntry) : Prop :=
  if ze.isDirectory then
    ¬ze.target path <:+ FilePath.resolve path ∧ ¬FilePath.resolve path <:+ ze.target path
  else ¬Inside (FilePath.resolve path) (ze.target path)

instance (root place : FilePath) : Decidable (Inside root place) :=
  inferInstanceAs (Decidable (_ ∧ _))

instance (path : String) (ze : ZipEntry) : Decidable (ze.Leaves path) :=
  inferInstanceAs (Decidable (ite _ _ _))

/-- An entry that does not leave and makes a directory outside the destination makes one above it. -/
theorem ZipEntry.suffix_of_not_leaves {path : String} {ze : ZipEntry} (stays : ¬ze.Leaves path)
    (directory : ze.isDirectory = true) {place : FilePath} (above : place <:+ ze.target path)
    (outside : ¬Inside (FilePath.resolve path) place) : place <:+ FilePath.resolve path := by
  rw [ZipEntry.Leaves, if_pos directory, not_and_not_right] at stays
  by_cases down : FilePath.resolve path <:+ ze.target path
  · rcases List.suffix_or_suffix_of_suffix above down with up | below
    · exact up
    · by_contra proper
      exact outside ⟨below, fun same => proper (same ▸ List.suffix_refl _)⟩
  · exact above.trans (by_contra fun beside => down (stays beside))

/-- Whatever was touched for entries none of which leaves lies inside the destination. -/
theorem Touched.staysInside {path : String} {entries : List ZipEntry}
    {tree tree' : FileTree String (List UInt8)} (touched : Touched path entries tree tree')
    (within : ∀ ze ∈ entries, ¬ze.Leaves path) : StaysInside (FilePath.resolve path) tree tree' := by
  intro place outside
  rcases touched place with same | ⟨_, _, ze, mem, file, target⟩ | ⟨absent, made, ze, mem, directory, above⟩
  · exact Or.inl same
  · have inside := within ze mem
    rw [ZipEntry.Leaves, file, target] at inside
    exact absurd outside inside
  · exact Or.inr ⟨ZipEntry.suffix_of_not_leaves (within ze mem) directory above outside, absent, made⟩

section Unzip

variable [Device]

/-- When no entry leaves the destination, every run stays inside it: from any tree, through any
failures, whether it completes or stops. -/
theorem unzipAssets_staysInside {assets : Bundle} {path : String}
    (within : ∀ ze ∈ assets.allEntries, ¬ze.Leaves path) (io : Schedule) (st : UnzipState) :
    StaysInside (FilePath.resolve path) st.tree (final (unzipAssets io assets path) st).tree := by
  have touched := unpack_touched path st (io, assets)
  exact touched.staysInside within

end Unzip

section Concrete

attribute [local instance] emulator

/-- An external storage on which the destination holds the CD image. -/
def UnzipState.destination : UnzipState :=
  { UnzipState.sdcard with
    tree := FileTree.ofFiles [["XCOM.iso", "OpenApoc", "sdcard"]] [] (by decide) }

theorem unzipAssets_staysInside_release :
    StaysInside (FilePath.resolve "/sdcard/OpenApoc") UnzipState.destination.tree
      (final (unzipAssets .quiet (.release [1] none) "/sdcard/OpenApoc") .destination).tree :=
  unzipAssets_staysInside (by decide +kernel) .quiet .destination

def Bundle.climbing : Bundle :=
  { Bundle.release [] none with entries := fun _ => [⟨"../evil.txt", [1]⟩] }

/-- An entry whose name climbs out of the destination is written beside it. -/
theorem not_staysInside_climbing :
    ¬∀ io assets path st, StaysInside (FilePath.resolve path) st.tree
      (final (unzipAssets io assets path) st).tree := by
  intro stays
  have outside : ¬Inside (FilePath.resolve "/sdcard/OpenApoc") ["evil.txt", "sdcard"] := by
    decide +kernel
  have before : UnzipState.destination.tree.node ["evil.txt", "sdcard"] = none := by decide +kernel
  have escaped : (final (unzipAssets .quiet .climbing "/sdcard/OpenApoc") .destination).tree.node
      ["evil.txt", "sdcard"] = some (.file [1]) := by decide +kernel
  rcases stays .quiet .climbing "/sdcard/OpenApoc" .destination _ outside with kept | ⟨_, _, made⟩
  · simp [escaped, before] at kept
  · simp [escaped] at made

end Concrete

end OpenApocLauncher
