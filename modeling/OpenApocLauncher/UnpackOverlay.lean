import OpenApocLauncher.Overlay
import OpenApocLauncher.UnpackRecord

namespace OpenApocLauncher

open AssetUnzipper Effects Overlay

abbrev FileWrite := FilePath × FileNode (List UInt8)

def ZipEntry.writes (root : FilePath) (ze : ZipEntry) : List FileWrite :=
  if ze.isDirectory then [] else [(FilePath.resolveFrom root ze.name, .file ze.content)]

def Work.writes (root : FilePath) : Work → List FileWrite
  | .entry ze => ze.writes root
  | _ => []

def Bundle.writes [Device] (assets : Bundle) (root : FilePath) : List FileWrite :=
  (dataZips assets).flatMap fun assetName => (assets.entries assetName).flatMap (ZipEntry.writes root)

theorem ZipEntry.target_eq (path : String) (ze : ZipEntry) :
    ze.target path = FilePath.resolveFrom (FilePath.resolve path) ze.name :=
  FilePath.resolve_join path ze.name

theorem ZipEntry.writes_file {ze : ZipEntry} {root : FilePath} {write : FileWrite}
    (h : write ∈ ze.writes root) : ∃ content, write.2 = .file content := by
  unfold ZipEntry.writes at h
  split at h
  next => simp at h
  next => exact ⟨ze.content, by rw [List.mem_singleton.mp h]⟩

theorem Work.writes_file {work : Work} {root : FilePath} {write : FileWrite}
    (h : write ∈ work.writes root) : ∃ content, write.2 = .file content := by
  cases work with
  | entry ze => exact ze.writes_file h
  | _ => simp [Work.writes] at h

theorem Bundle.writes_file [Device] {assets : Bundle} {root : FilePath} {write : FileWrite}
    (h : write ∈ assets.writes root) : ∃ content, write.2 = .file content := by
  obtain ⟨assetName, _, h⟩ := List.mem_flatMap.mp h
  obtain ⟨ze, _, h⟩ := List.mem_flatMap.mp h
  exact ze.writes_file h

theorem assetWork_writes (assets : Bundle) (root : FilePath) (assetName : String) :
    (assetWork assets assetName).flatMap (Work.writes root) =
      (assets.entries assetName).flatMap (ZipEntry.writes root) := by
  simp [assetWork, Work.writes, List.flatMap_append, List.flatMap_map]

theorem unpackProgram_writes [Device] (assets : Bundle) (root : FilePath) :
    (unpackProgram assets).flatMap (Work.writes root) = assets.writes root := by
  simp only [unpackProgram, Bundle.writes, List.flatMap_cons, Work.writes, List.nil_append,
    List.flatMap_assoc, assetWork_writes]

section Perform

variable (io : Schedule) (assets : Bundle) (path : String)

theorem absorbs_nothing {store store' : FilePath → Option (FileNode (List UInt8))}
    (kept : ∀ key value, store key = some value → store' key = some value) :
    Absorbs store [] store' :=
  ⟨holds_nil store', fun key value h _ => kept key value h⟩

theorem unzipEntry_absorbs {ze : ZipEntry} {st st' : UnzipState} {u : Unit}
    (h : (unzipEntry io path ze).run st = .ok u st') :
    Absorbs st.tree.node (ze.writes (FilePath.resolve path)) st'.tree.node := by
  cases kind : ze.isDirectory with
  | true =>
    have made := unzipEntry_directory_makes io path kind st
    rw [final_of_ok h] at made
    have none : ze.writes (FilePath.resolve path) = [] := by simp [ZipEntry.writes, kind]
    rw [none]
    apply absorbs_nothing
    intro other node there
    rcases made.added other with kept | ⟨absent, _, _⟩
    · exact kept.trans there
    · simp [there] at absent
  | false =>
    have content := unzipEntry_ok io kind h
    have changes := unzipEntry_file_changes io path kind st
    rw [final_of_ok h] at changes
    have one : ze.writes (FilePath.resolve path) = [(ze.target path, .file ze.content)] := by
      simp [ZipEntry.writes, kind, ZipEntry.target_eq]
    rw [one]
    constructor
    · intro other node written
      obtain ⟨rfl, rfl⟩ := Prod.mk.inj (List.mem_singleton.mp (lastWrite_mem written))
      exact content
    · intro other node there untouched
      have apart : other ≠ ze.target path := by
        rintro rfl
        simp [lastWrite] at untouched
      exact (changes.outside other apart).trans there

/-- A step that ends puts the file of its entry in place and leaves the rest of the tree. -/
theorem Work.perform_absorbs {work : Work} {st st' : UnzipState} {u : Unit}
    (h : (work.perform io assets path).run st = .ok u st') :
    Absorbs st.tree.node (work.writes (FilePath.resolve path)) st'.tree.node := by
  rcases work.perform_ok io h with ⟨other, kept, _⟩ | ⟨ze, rfl, run⟩
  · have none : work.writes (FilePath.resolve path) = [] := by
      cases work with
      | entry ze => exact absurd rfl (other ze)
      | _ => rfl
    rw [none, kept]
    exact absorbs_nothing fun _ _ there => there
  · have absorbed := unzipEntry_absorbs io path run
    exact absorbed

theorem Work.perform_mPrefs {work : Work} {st st' : UnzipState} {u : Unit}
    (h : (work.perform io assets path).run st = .ok u st') : st'.mPrefs = st.mPrefs := by
  rcases work.perform_ok io h with ⟨_, _, kept⟩ | ⟨ze, rfl, run⟩
  · exact kept
  · have kept := unzipEntry_sameRecords io path ze st.advance
    rw [final_of_ok run] at kept
    exact kept.1

end Perform

end OpenApocLauncher
