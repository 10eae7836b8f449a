import OpenApocLauncher.UnpackOutcome
import OpenApocLauncher.UnpackOverlay

namespace OpenApocLauncher

open AssetUnzipper Effects Overlay

def Work.zipEntry : Work → Option ZipEntry
  | .entry ze => some ze
  | _ => none

/-- The zip entries among the steps, in order. -/
def zipEntries (works : List Work) : List ZipEntry := works.filterMap Work.zipEntry

def Bundle.allEntries [Device] (assets : Bundle) : List ZipEntry :=
  (dataZips assets).flatMap assets.entries

theorem zipEntries_append (first second : List Work) :
    zipEntries (first ++ second) = zipEntries first ++ zipEntries second :=
  List.filterMap_append

theorem zipEntries_cons (work : Work) (works : List Work) :
    zipEntries (work :: works) = work.zipEntry.toList ++ zipEntries works := by
  cases work <;> rfl

theorem Work.eq_entry {work : Work} {ze : ZipEntry} (h : work.zipEntry = some ze) :
    work = .entry ze := by
  cases work with
  | entry own => exact congrArg Work.entry (Option.some.inj h)
  | _ => simp [Work.zipEntry] at h

theorem assetWork_zipEntries (assets : Bundle) (assetName : String) :
    zipEntries (assetWork assets assetName) = assets.entries assetName := by
  have own : zipEntries ((assets.entries assetName).map .entry) = assets.entries assetName := by
    simp [zipEntries, List.filterMap_map, Function.comp_def, Work.zipEntry]
  have close : zipEntries [.closeAsset assetName] = [] := rfl
  have opened : zipEntries (assetWork assets assetName) =
      zipEntries ((assets.entries assetName).map .entry ++ [.closeAsset assetName]) := rfl
  rw [opened, zipEntries_append, own, close, List.append_nil]

theorem unpackProgram_zipEntries [Device] (assets : Bundle) :
    zipEntries (unpackProgram assets) = assets.allEntries := by
  have archives (names : List String) :
      zipEntries (names.flatMap (assetWork assets)) = names.flatMap assets.entries := by
    induction names with
    | nil => rfl
    | cons assetName names ih =>
      rw [List.flatMap_cons, List.flatMap_cons, zipEntries_append, assetWork_zipEntries, ih]
  exact archives (dataZips assets)

def fileWrites (path : String) (entries : List ZipEntry) : List FileWrite :=
  entries.flatMap (ZipEntry.writes (FilePath.resolve path))

theorem fileWrites_append (path : String) (first second : List ZipEntry) :
    fileWrites path (first ++ second) = fileWrites path first ++ fileWrites path second :=
  List.flatMap_append

theorem mem_fileWrites {path : String} {entries : List ZipEntry} {write : FileWrite} :
    write ∈ fileWrites path entries ↔
      ∃ ze ∈ entries, ze.isDirectory = false ∧ write = (ze.target path, .file ze.content) := by
  simp only [fileWrites, List.mem_flatMap, ZipEntry.writes, ZipEntry.target_eq]
  refine exists_congr fun ze => and_congr_right fun _ => ?_
  cases ze.isDirectory <;> simp

/-- The tree is the overlay of the file entries, up to directories that were added for the
directory entries. -/
def Overlaid (path : String) (entries : List ZipEntry) (tree tree' : FileTree String (List UInt8)) :
    Prop :=
  ∀ place, tree'.node place = overlay tree.node (fileWrites path entries) place ∨
    overlay tree.node (fileWrites path entries) place = none ∧
      tree'.node place = some .directory ∧
      ∃ ze ∈ entries, ze.isDirectory = true ∧ place <:+ ze.target path

/-- An entry whose file is left with a part of its bytes. -/
structure Torn (path : String) (ze : ZipEntry) (tree tree' : FileTree String (List UInt8)) : Prop where
  isFile : ze.isDirectory = false
  before : tree.node (ze.target path) ≠ some .directory
  part : ∃ part, part <+: ze.content ∧ tree'.node (ze.target path) = some (.file part)
  outside : ∀ place ≠ ze.target path, tree'.node place = tree.node place

/-- What a step that meets an exception leaves: the tree as it was, or the torn file of its
entry. -/
def Work.Stopped (path : String) (work : Work) (tree tree' : FileTree String (List UInt8)) : Prop :=
  tree' = tree ∨ ∃ ze, work = .entry ze ∧ Torn path ze tree tree'

variable {path : String} {tree tree' tree'' : FileTree String (List UInt8)}

theorem Overlaid.refl : Overlaid path [] tree tree := by
  intro place
  exact Or.inl (overlay_of_none rfl).symm

theorem Overlaid.written {entries : List ZipEntry} (laid : Overlaid path entries tree tree')
    {place : FilePath} {node : FileNode (List UInt8)}
    (last : lastWrite (fileWrites path entries) place = some node) :
    tree'.node place = some node := by
  rcases laid place with there | ⟨absent, _⟩
  · rwa [overlay_of_some last] at there
  · simp [overlay_of_some last] at absent

theorem Overlaid.unwritten {entries : List ZipEntry} (laid : Overlaid path entries tree tree')
    {place : FilePath} (none : lastWrite (fileWrites path entries) place = none) :
    tree'.node place = tree.node place ∨
      tree.node place = .none ∧ tree'.node place = some .directory ∧
        ∃ ze ∈ entries, ze.isDirectory = true ∧ place <:+ ze.target path := by
  have added := laid place
  rwa [overlay_of_none none] at added

theorem Overlaid.trans {first second : List ZipEntry} (earlier : Overlaid path first tree tree')
    (later : Overlaid path second tree' tree'') :
    Overlaid path (first ++ second) tree tree'' := by
  intro place
  rw [fileWrites_append, overlay_append]
  cases last : lastWrite (fileWrites path second) place with
  | some node => exact Or.inl ((later.written last).trans (overlay_of_some last).symm)
  | none =>
    rw [overlay_of_none last]
    rcases later.unwritten last with same | ⟨absent, made, ze, mem, directory, above⟩
    · rw [same]
      rcases earlier place with same' | ⟨absent, made, ze, mem, directory, above⟩
      · exact Or.inl same'
      · exact Or.inr ⟨absent, made, ze, List.mem_append_left _ mem, directory, above⟩
    · refine Or.inr ⟨?_, made, ze, List.mem_append_right _ mem, directory, above⟩
      rcases earlier place with same' | ⟨absent', _⟩
      · rw [← same', absent]
      · exact absent'

theorem MakesDirectories.overlaid {ze : ZipEntry} (directory : ze.isDirectory = true)
    {st st' : UnzipState} (made : MakesDirectories (ze.target path) st st') :
    Overlaid path [ze] st.tree st'.tree := by
  have none : fileWrites path [ze] = [] := by simp [fileWrites, ZipEntry.writes, directory]
  intro place
  rw [none, overlay_of_none rfl]
  rcases made.added place with kept | ⟨absent, there, above⟩
  · exact Or.inl kept
  · exact Or.inr ⟨absent, there, ze, List.mem_singleton_self ze, directory, above⟩

theorem Changes.overlaid {ze : ZipEntry} (file : ze.isDirectory = false) {st st' : UnzipState}
    (changes : Changes (· = ze.target path) st st')
    (there : st'.tree.node (ze.target path) = some (.file ze.content)) :
    Overlaid path [ze] st.tree st'.tree := by
  have one : fileWrites path [ze] = [(ze.target path, .file ze.content)] := by
    simp [fileWrites, ZipEntry.writes, file, ZipEntry.target_eq]
  intro place
  rw [one]
  by_cases own : place = ze.target path
  · subst own
    exact Or.inl (there.trans (overlay_of_some (by simp [lastWrite])).symm)
  · have untouched : lastWrite [(ze.target path, FileNode.file ze.content)] place = none := by
      simp [lastWrite, Ne.symm own]
    exact Or.inl ((changes.outside place own).trans (overlay_of_none untouched).symm)

section Perform

variable (io : Schedule) (assets : Bundle)

theorem unzipEntry_overlaid {ze : ZipEntry} {st st' : UnzipState} {u : Unit}
    (h : (unzipEntry io path ze).run st = .ok u st') : Overlaid path [ze] st.tree st'.tree := by
  cases kind : ze.isDirectory with
  | true =>
    have made := unzipEntry_directory_makes io path kind st
    rw [final_of_ok h] at made
    exact made.overlaid kind
  | false =>
    have changes := unzipEntry_file_changes io path kind st
    rw [final_of_ok h] at changes
    exact changes.overlaid kind (unzipEntry_ok io kind h)

theorem Work.perform_overlaid {work : Work} {st st' : UnzipState} {u : Unit}
    (h : (work.perform io assets path).run st = .ok u st') :
    Overlaid path work.zipEntry.toList st.tree st'.tree := by
  rcases work.perform_ok io h with ⟨other, kept, _⟩ | ⟨ze, rfl, run⟩
  · have none : work.zipEntry = .none := by
      cases work with
      | entry ze => exact absurd rfl (other ze)
      | _ => rfl
    rw [none, kept]
    exact Overlaid.refl
  · have laid := unzipEntry_overlaid io run
    exact laid

/-- Steps that end leave the overlay of their entries. -/
theorem performAll_overlaid {works : List Work} {st st' : UnzipState} {u : Unit}
    (h : (performAll io assets path works).run st = .ok u st') :
    Overlaid path (zipEntries works) st.tree st'.tree := by
  induction works generalizing st with
  | nil =>
    cases h
    exact Overlaid.refl
  | cons work works ih =>
    obtain ⟨_, st₁, first, rest⟩ := bind_ok h
    have both := (work.perform_overlaid io assets first).trans (ih rest)
    rwa [zipEntries_cons]

/-- However the copying ends, the file has grown by a first part of what was read. -/
theorem copyEntry_part {outFile : FilePath} (reads : List (List UInt8)) {st : UnzipState}
    {old : List UInt8} (file : st.tree.node outFile = some (.file old)) :
    ∃ part, part <+: reads.flatten ∧
      (final (copyEntry io outFile reads) st).tree.node outFile = some (.file (old ++ part)) := by
  induction reads generalizing st old with
  | nil =>
    refine ⟨[], List.nil_prefix, ?_⟩
    rw [copyEntry, final_attempt, List.append_nil]
    exact file
  | cons buffer reads ih =>
    rw [copyEntry]
    cases read : io.fault st.clock with
    | some effect =>
      refine ⟨[], List.nil_prefix, ?_⟩
      rw [final_bind_of_error (attempt_run_of_some io read), List.append_nil]
      exact file
    | none =>
      rw [final_bind_of_ok (attempt_run_of_none io read)]
      have grown (bytes : List UInt8) :
          (Io.append outFile bytes st.advance.advance).tree.node outFile =
            some (.file (old ++ bytes)) := append_file bytes file
      cases written : io.fault st.advance.clock with
      | some landed =>
        rw [final_bind_of_error (write_run_of_some io outFile buffer written)]
        have part := (List.take_prefix landed buffer).trans (List.prefix_append buffer reads.flatten)
        exact ⟨_, part, grown _⟩
      | none =>
        rw [final_bind_of_ok (write_run_of_none io outFile buffer written)]
        obtain ⟨part, isPart, there⟩ := ih (grown buffer)
        refine ⟨buffer ++ part, (List.prefix_append_right_inj buffer).mpr isPart, ?_⟩
        rwa [← List.append_assoc]

theorem copyEntry_close_part {outFile : FilePath} (reads : List (List UInt8)) {st : UnzipState}
    {old : List UInt8} (file : st.tree.node outFile = some (.file old)) :
    ∃ part, part <+: reads.flatten ∧
      (final (do copyEntry io outFile reads; Io.attempt io) st).tree.node outFile =
        some (.file (old ++ part)) := by
  obtain ⟨part, isPart, there⟩ := copyEntry_part io reads file
  refine ⟨part, isPart, ?_⟩
  cases copied : (copyEntry io outFile reads).run st with
  | ok u st' =>
    rw [final_of_ok copied] at there
    rw [final_bind_of_ok copied, final_attempt]
    exact there
  | error e st' =>
    rw [final_of_error copied] at there
    rwa [final_bind_of_error copied]

theorem create_error {outFile : FilePath} {st st' : UnzipState} {e : IOException}
    (h : (Io.create io outFile).run st = .error e st') : st' = st.advance := by
  rcases bind_error h with opened | ⟨_, st₁, opened, h⟩
  · have last := final_attempt io st
    rwa [final_of_error opened] at last
  · obtain ⟨_, rfl⟩ := attempt_ok io opened
    simp only [EStateM.run_bind, EStateM.run_get] at h
    cases stored : st.advance.tree.store [] outFile with
    | none =>
      rw [stored] at h
      cases h
      rfl
    | some tree =>
      rw [stored] at h
      cases h

/-- An entry that stops leaves the tree alone, or its own file with a part of the bytes. -/
theorem unzipEntry_torn {ze : ZipEntry} {st st' : UnzipState} {e : IOException}
    (h : (unzipEntry io path ze).run st = .error e st') :
    st'.tree = st.tree ∨ Torn path ze st.tree st'.tree := by
  have isFile : ze.isDirectory = false := by
    cases kind : ze.isDirectory with
    | true => exact absurd (unzipEntry_directory_ends io kind st) (not_ends_of_error h)
    | false => rfl
  have changes := unzipEntry_file_changes io path isFile st
  rw [final_of_error h] at changes
  simp only [unzipEntry, isFile, Bool.false_eq_true, if_false] at h
  rcases bind_error h with created | ⟨_, st₁, created, h⟩
  · rw [create_error io created]
    exact Or.inl rfl
  · obtain ⟨made, _, stored, rfl⟩ := create_ok io created
    obtain ⟨free, empty, _⟩ := FileTree.store_node stored
    have rest : (do
        copyEntry io (ze.target path) (io.chunks (st.clock + 1) ze.content)
        Io.attempt io).run { st.advance with tree := made } = .error e st' := h
    have file : ({ st.advance with tree := made } : UnzipState).tree.node (ze.target path) =
        some (.file []) := empty
    obtain ⟨part, isPart, there⟩ :=
      copyEntry_close_part io (io.chunks (st.clock + 1) ze.content) file
    rw [final_of_error rest, List.nil_append] at there
    rw [io.flatten_chunks] at isPart
    exact Or.inr ⟨isFile, free, ⟨part, isPart, there⟩, changes.outside⟩

theorem Work.perform_stopped {work : Work} {st st' : UnzipState} {e : IOException}
    (h : (work.perform io assets path).run st = .error e st') :
    work.Stopped path st.tree st'.tree := by
  have attempted {st st' : UnzipState} {e : IOException}
      (h : (Io.attempt io).run st = .error e st') : st'.tree = st.tree := by
    have last := final_attempt io st
    rw [final_of_error h] at last
    rw [last, UnzipState.advance_tree]
  cases work with
  | list => exact Or.inl (attempted h)
  | openAsset assetName => exact Or.inl (attempted h)
  | entry ze =>
    rcases bind_error h with first | ⟨_, st₁, first, rest⟩
    · exact Or.inl (attempted first)
    · obtain ⟨_, rfl⟩ := attempt_ok io first
      rcases unzipEntry_torn io rest with same | torn
      · exact Or.inl same
      · exact Or.inr ⟨ze, rfl, torn⟩
  | closeAsset assetName =>
    rcases bind_error h with first | ⟨_, st₁, _, rest⟩
    · exact Or.inl (attempted first)
    · cases rest

/-- Steps that do not all end: those before some step do, and the run stops there. -/
theorem performAll_error {works : List Work} {st st' : UnzipState} {e : IOException}
    (h : (performAll io assets path works).run st = .error e st') :
    ∃ done work rest, works = done ++ work :: rest ∧
      ∃ st₁, (performAll io assets path done).run st = .ok () st₁ ∧
        (work.perform io assets path).run st₁ = .error e st' := by
  induction works generalizing st with
  | nil => cases h
  | cons work works ih =>
    rcases bind_error h with first | ⟨_, st₁, first, rest⟩
    · exact ⟨[], work, works, rfl, st, rfl, first⟩
    · obtain ⟨done, stopped, left, rfl, st₂, performed, stops⟩ := ih rest
      refine ⟨work :: done, stopped, left, rfl, st₂, ?_, stops⟩
      simpa only [performAll, EStateM.run_bind, first] using performed

end Perform

section Unzip

variable [Device] (io : Schedule) (assets : Bundle) (path : String)

/-- Unpacking lays the entries over the tree in their order; an exception stops it at one step,
with the entries before it in place and none after it begun. -/
structure OverlaysInOrder (st : UnzipState) : Prop where
  ended : Ends (unzipLoops io assets path) { st with assetHashes := [] } →
    Overlaid path assets.allEntries st.tree (final (unzipAssets io assets path) st).tree
  stopped : ¬Ends (unzipLoops io assets path) { st with assetHashes := [] } →
    ∃ done work rest, unpackProgram assets = done ++ work :: rest ∧
      ∃ st₁, (performAll io assets path done).run { st with assetHashes := [] } = .ok () st₁ ∧
        ¬Ends (work.perform io assets path) st₁ ∧
        Overlaid path (zipEntries done) st.tree st₁.tree ∧
        work.Stopped path st₁.tree (final (unzipAssets io assets path) st).tree

theorem unzipAssets_tree (st : UnzipState) :
    (final (unzipAssets io assets path) st).tree =
      (final (performAll io assets path (unpackProgram assets)) { st with assetHashes := [] }).tree := by
  rw [final_of_ok (unzipAssets_run io assets path st)]
  rfl

theorem unzipAssets_ended {st : UnzipState}
    (ends : Ends (unzipLoops io assets path) { st with assetHashes := [] }) :
    Overlaid path assets.allEntries st.tree (final (unzipAssets io assets path) st).tree := by
  obtain ⟨u, st', h⟩ := (unzipLoops_ends_iff io assets path _).mp ends
  rw [unzipAssets_tree, final_of_ok h, ← unpackProgram_zipEntries]
  have laid := performAll_overlaid io assets h
  exact laid

theorem unzipAssets_stopped {st : UnzipState}
    (stops : ¬Ends (unzipLoops io assets path) { st with assetHashes := [] }) :
    ∃ done work rest, unpackProgram assets = done ++ work :: rest ∧
      ∃ st₁, (performAll io assets path done).run { st with assetHashes := [] } = .ok () st₁ ∧
        ¬Ends (work.perform io assets path) st₁ ∧
        Overlaid path (zipEntries done) st.tree st₁.tree ∧
        work.Stopped path st₁.tree (final (unzipAssets io assets path) st).tree := by
  rw [unzipLoops_ends_iff] at stops
  rcases ends_or_error (performAll io assets path (unpackProgram assets))
    { st with assetHashes := [] } with ends | ⟨e, st', h⟩
  · exact absurd ends stops
  · obtain ⟨done, work, rest, split, st₁, performed, error⟩ := performAll_error io assets h
    have laid := performAll_overlaid io assets performed
    refine ⟨done, work, rest, split, st₁, performed, not_ends_of_error error, laid, ?_⟩
    rw [unzipAssets_tree, final_of_error h]
    exact work.perform_stopped io assets error

theorem unzipAssets_overlaysInOrder (st : UnzipState) : OverlaysInOrder io assets path st :=
  ⟨unzipAssets_ended io assets path, unzipAssets_stopped io assets path⟩

end Unzip

end OpenApocLauncher
