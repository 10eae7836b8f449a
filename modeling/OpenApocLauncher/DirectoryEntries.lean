import OpenApocLauncher.Extraction

namespace OpenApocLauncher

open AssetUnzipper Effects Overlay

def Schedule.NeverFails (io : Schedule) : Prop := ∀ clock, io.fault clock = none

section Mkdirs

variable {io : Schedule}

/-- Without failures `mkdirs` leaves a directory unless a file stands in the way. -/
theorem directoryMakeable_of_clear (quiet : io.NeverFails) {path : FilePath} {st : UnzipState}
    (clear : ∀ dir, dir <:+ path → ∀ content, st.tree.node dir ≠ some (.file content)) :
    DirectoryMakeable io path st := by
  refine ⟨?_, fun i _ => quiet _⟩
  obtain ⟨node, there⟩ := Option.ne_none_iff_exists'.mp (st.tree.node_drop_missing path)
  cases node with
  | directory => exact there
  | file content => exact absurd there (clear _ (List.drop_suffix _ _) content)

theorem unzipEntry_makes_directory (quiet : io.NeverFails) {path : String} {ze : ZipEntry}
    (kind : ze.isDirectory = true) {st st' : UnzipState} {u : Unit}
    (clear : ∀ dir, dir <:+ ze.target path → ∀ content, st.tree.node dir ≠ some (.file content))
    (run : (unzipEntry io path ze).run st = .ok u st') :
    st'.tree.node (ze.target path) = some .directory := by
  have unpackable : ze.Unpackable io path st := by
    rw [ZipEntry.Unpackable, if_pos kind]
    exact directoryMakeable_of_clear quiet clear
  have unpacked := ((unzipEntry_unpacked_iff io path ze st).mpr unpackable).2
  rwa [ZipEntry.Unpacked, final_of_ok run, if_pos kind] at unpacked

end Mkdirs

/-- The components of an entry's name, without the mark of a directory. -/
def ZipEntry.components (ze : ZipEntry) : List String :=
  FilePath.components (if ze.isDirectory then Text.dropEnd ze.name 1 else ze.name)

def ZipEntry.Normalised (ze : ZipEntry) : Prop :=
  ∀ component ∈ ze.components, component ≠ "" ∧ component ≠ "." ∧ component ≠ ".."

def ZipEntry.under (root : FilePath) (ze : ZipEntry) : FilePath := ze.components.reverse ++ root

theorem ZipEntry.target_eq_under {ze : ZipEntry} (plain : ze.Normalised) (path : String) :
    ze.target path = ze.under (FilePath.resolve path) := by
  rw [ze.target_eq, FilePath.resolveFrom, ZipEntry.under, ← FilePath.foldl_enter plain]
  unfold ZipEntry.components
  cases kind : ze.isDirectory with
  | false => simp
  | true =>
    obtain ⟨name, same⟩ := Text.endsWith_iff.mp kind
    have mark : FilePath.components (name ++ "/") = FilePath.components name ++ [""] := by
      have joined := FilePath.components_join name ""
      rwa [String.append_empty] at joined
    have bare : Text.dropEnd (name ++ "/") 1 = name := Text.dropEnd_append name "/"
    rw [if_pos rfl, same, bare, mark, List.foldl_append]
    rfl

-- the proofs below compare names as wholes and never split one
attribute [irreducible] ZipEntry.components

theorem ZipEntry.under_suffix_iff {ze other : ZipEntry} {root : FilePath} :
    ze.under root <:+ other.under root ↔ ze.components <+: other.components :=
  List.suffix_append_self_iff.trans List.reverse_suffix

/-- Entries and a destination that do not stand in each other's way: no file is a directory or
above another entry, and the tree has no file where a directory is needed and no directory
where a file is. -/
structure Fits (entries : List ZipEntry) (root : FilePath) (tree : FileTree String (List UInt8)) :
    Prop where
  normalised : ∀ ze ∈ entries, ze.Normalised
  apart : ∀ ze ∈ entries, ∀ other ∈ entries, ze.isDirectory = false →
    ze.components <+: other.components → ze = other
  destination : tree.node root = some .directory
  noFile : ∀ ze ∈ entries, ∀ place, place <:+ ze.under root →
    (ze.isDirectory = false → place ≠ ze.under root) →
    ∀ content, tree.node place ≠ some (.file content)
  noDirectory : ∀ ze ∈ entries, ze.isDirectory = false →
    tree.node (ze.under root) ≠ some .directory

theorem Fits.mono {entries entries' : List ZipEntry} {root : FilePath}
    {tree : FileTree String (List UInt8)} (fits : Fits entries root tree)
    (sub : ∀ ze ∈ entries', ze ∈ entries) : Fits entries' root tree where
  normalised ze mem := fits.normalised ze (sub ze mem)
  apart ze mem other mem' := fits.apart ze (sub ze mem) other (sub other mem')
  destination := fits.destination
  noFile ze mem := fits.noFile ze (sub ze mem)
  noDirectory ze mem := fits.noDirectory ze (sub ze mem)

/-- Every file comes after a directory entry that makes its directory, unless the directory is
ready without. -/
def DirectoriesFirst (root : FilePath) (ready : FilePath → Prop) (entries : List ZipEntry) : Prop :=
  ∀ before ze after, entries = before ++ ze :: after → ze.isDirectory = false →
    ready (ze.under root).tail ∨
      ∃ directory ∈ before, directory.isDirectory = true ∧
        (ze.under root).tail <:+ directory.under root

theorem directoriesFirst_cons_file {root : FilePath} {ready : FilePath → Prop} {ze : ZipEntry}
    {rest : List ZipEntry} (file : ze.isDirectory = false) :
    DirectoriesFirst root ready (ze :: rest) ↔
      ready (ze.under root).tail ∧ DirectoriesFirst root ready rest := by
  constructor
  · intro first
    refine ⟨by simpa using first [] ze rest rfl file, ?_⟩
    intro before other after split file'
    have inWhole : ze :: rest = (ze :: before) ++ other :: after := by rw [split, List.cons_append]
    rcases first _ other after inWhole file' with there | ⟨directory, mem, kind, above⟩
    · exact Or.inl there
    · rcases List.mem_cons.mp mem with rfl | mem
      · simp [file] at kind
      · exact Or.inr ⟨directory, mem, kind, above⟩
  · intro both before other after split file'
    obtain ⟨own, first⟩ := both
    rcases List.cons_eq_append_iff.mp split with ⟨rfl, same⟩ | ⟨before, rfl, split'⟩
    · cases same
      exact Or.inl own
    · rcases first before other after split' file' with there | ⟨directory, mem, kind, above⟩
      · exact Or.inl there
      · exact Or.inr ⟨directory, List.mem_cons_of_mem _ mem, kind, above⟩

theorem directoriesFirst_cons_directory {root : FilePath} {ready : FilePath → Prop} {ze : ZipEntry}
    {rest : List ZipEntry} (directory : ze.isDirectory = true) :
    DirectoriesFirst root ready (ze :: rest) ↔
      DirectoriesFirst root (fun place => ready place ∨ place <:+ ze.under root) rest := by
  constructor
  · intro first before other after split file
    have inWhole : ze :: rest = (ze :: before) ++ other :: after := by rw [split, List.cons_append]
    rcases first _ other after inWhole file with there | ⟨made, mem, kind, above⟩
    · exact Or.inl (Or.inl there)
    · rcases List.mem_cons.mp mem with rfl | mem
      · exact Or.inl (Or.inr above)
      · exact Or.inr ⟨made, mem, kind, above⟩
  · intro first before other after split file
    rcases List.cons_eq_append_iff.mp split with ⟨rfl, same⟩ | ⟨before, rfl, split'⟩
    · cases same
      simp [directory] at file
    · rcases first before other after split' file with (there | above) | ⟨made, mem, kind, above⟩
      · exact Or.inl there
      · exact Or.inr ⟨ze, List.mem_cons_self, directory, above⟩
      · exact Or.inr ⟨made, List.mem_cons_of_mem _ mem, kind, above⟩

theorem directoriesFirst_congr {root : FilePath} {ready ready' : FilePath → Prop}
    {entries : List ZipEntry}
    (same : ∀ ze ∈ entries, ze.isDirectory = false →
      (ready (ze.under root).tail ↔ ready' (ze.under root).tail)) :
    DirectoriesFirst root ready entries ↔ DirectoriesFirst root ready' entries := by
  unfold DirectoriesFirst
  refine forall_congr' fun before => forall_congr' fun ze => forall_congr' fun after => ?_
  refine forall_congr' fun split => forall_congr' fun file => ?_
  rw [same ze (by simp [split]) file]

section Steps

variable {io : Schedule} {path : String}

theorem Fits.same_of_under {entries : List ZipEntry} {root : FilePath}
    {tree : FileTree String (List UInt8)} (fits : Fits entries root tree) {ze other : ZipEntry}
    (mem : ze ∈ entries) (mem' : other ∈ entries) (file : ze.isDirectory = false)
    (above : ze.under root <:+ other.under root) : ze = other :=
  fits.apart ze mem other mem' file (ZipEntry.under_suffix_iff.mp above)

theorem Fits.not_above_parent {entries : List ZipEntry} {root : FilePath}
    {tree : FileTree String (List UInt8)} (fits : Fits entries root tree) {ze other : ZipEntry}
    (mem : ze ∈ entries) (mem' : other ∈ entries) (file : ze.isDirectory = false)
    (file' : other.isDirectory = false) : (other.under root).tail ≠ ze.under root := by
  intro same
  have inside : other.under root ≠ [] := by
    intro none
    exact fits.noDirectory other mem' file' (none ▸ tree.root)
  have above : ze.under root <:+ other.under root := by
    rw [← same]
    exact List.tail_suffix _
  obtain rfl := fits.same_of_under mem mem' file above
  have length := congrArg List.length same
  rw [List.length_tail] at length
  have positive := List.length_pos_iff.mpr inside
  omega

/-- Without failures a file entry ends when its directory is there. -/
theorem unzipEntry_file_ends_of_quiet (quiet : io.NeverFails) {ze : ZipEntry}
    (file : ze.isDirectory = false) (plain : ze.Normalised) {st : UnzipState}
    (free : st.tree.node (ze.under (FilePath.resolve path)) ≠ some .directory) :
    Ends (unzipEntry io path ze) st ↔
      st.tree.node (ze.under (FilePath.resolve path)).tail = some .directory := by
  have writable : FileWritable io (ze.target path) ze.content st ↔
      (st.tree.store [] (ze.target path)).isSome :=
    and_iff_left fun i _ => quiet _
  rw [unzipEntry_file_ends_iff io file, writable, ze.target_eq_under plain]
  cases place : ze.under (FilePath.resolve path) with
  | nil => exact absurd (place ▸ st.tree.root) free
  | cons name dir =>
    rw [place] at free
    rw [st.tree.store_isSome_iff, List.tail_cons, and_iff_left free]

theorem Changes.fits {ze : ZipEntry} {rest : List ZipEntry} {root : FilePath} {st st' : UnzipState}
    (changes : Changes (· = ze.under root) st st') (file : ze.isDirectory = false)
    (there : st'.tree.node (ze.under root) = some (.file ze.content))
    (fits : Fits (ze :: rest) root st.tree) : Fits rest root st'.tree := by
  have later := fits.mono fun other mem => List.mem_cons_of_mem ze mem
  refine ⟨later.normalised, later.apart, ?_, ?_, ?_⟩
  · have apart : root ≠ ze.under root := by
      intro same
      exact fits.noDirectory ze List.mem_cons_self file (same ▸ fits.destination)
    rw [changes.outside root apart]
    exact fits.destination
  · intro other mem place above proper content
    by_cases own : place = ze.under root
    · subst own
      obtain rfl := fits.same_of_under List.mem_cons_self (List.mem_cons_of_mem ze mem) file above
      exact absurd rfl (proper file)
    · rw [changes.outside place own]
      exact later.noFile other mem place above proper content
  · intro other mem file'
    by_cases own : other.under root = ze.under root
    · rw [own, there]
      simp
    · rw [changes.outside _ own]
      exact later.noDirectory other mem file'

theorem MakesDirectories.fits {ze : ZipEntry} {rest : List ZipEntry} {root : FilePath}
    {st st' : UnzipState} (made : MakesDirectories (ze.under root) st st')
    (directory : ze.isDirectory = true) (fits : Fits (ze :: rest) root st.tree) :
    Fits rest root st'.tree := by
  have later := fits.mono fun other mem => List.mem_cons_of_mem ze mem
  refine ⟨later.normalised, later.apart, ?_, ?_, ?_⟩
  · rcases made.added root with kept | ⟨_, there, _⟩
    · rw [kept]
      exact fits.destination
    · exact there
  · intro other mem place above proper content
    rcases made.added place with kept | ⟨_, there, _⟩
    · rw [kept]
      exact later.noFile other mem place above proper content
    · simp [there]
  · intro other mem file'
    rcases made.added (other.under root) with kept | ⟨_, _, above⟩
    · rw [kept]
      exact later.noDirectory other mem file'
    · obtain rfl := fits.same_of_under (List.mem_cons_of_mem ze mem) List.mem_cons_self file' above
      simp [directory] at file'

theorem Work.perform_of_no_entry (quiet : io.NeverFails) (assets : Bundle) {work : Work}
    (none : work.zipEntry = none) (st : UnzipState) :
    ∃ st', (work.perform io assets path).run st = .ok () st' ∧ st'.tree = st.tree := by
  have attempted := attempt_run_of_none io (quiet st.clock)
  cases work with
  | list => exact ⟨_, attempted, rfl⟩
  | openAsset assetName => exact ⟨_, attempted, rfl⟩
  | entry ze => simp [Work.zipEntry] at none
  | closeAsset assetName =>
    refine ⟨putHash assetName (getAssetHash assets assetName) st.advance, ?_, rfl⟩
    simp only [Work.perform, EStateM.run_bind, attempted]
    rfl

theorem Work.perform_entry_of_quiet (quiet : io.NeverFails) (assets : Bundle) (ze : ZipEntry)
    (st : UnzipState) :
    ((Work.entry ze).perform io assets path).run st = (unzipEntry io path ze).run st.advance := by
  simp only [Work.perform, EStateM.run_bind, attempt_run_of_none io (quiet st.clock)]

/-- The directories of the files that follow are the ones that were there and, after a
directory entry, those on the way to it. -/
theorem ready_after_entry (quiet : io.NeverFails) {ze : ZipEntry} {rest : List ZipEntry}
    {st st' : UnzipState} {u : Unit} (fits : Fits (ze :: rest) (FilePath.resolve path) st.tree)
    (run : (unzipEntry io path ze).run st = .ok u st') :
    Fits rest (FilePath.resolve path) st'.tree ∧
      ∀ other ∈ rest, other.isDirectory = false →
        let parent := (other.under (FilePath.resolve path)).tail
        st'.tree.node parent = some .directory ↔
          st.tree.node parent = some .directory ∨
            ze.isDirectory = true ∧ parent <:+ ze.under (FilePath.resolve path) := by
  have own := fits.normalised ze List.mem_cons_self
  cases kind : ze.isDirectory with
  | false =>
    have changes := unzipEntry_file_changes io path kind st
    have there := unzipEntry_ok io kind run
    rw [final_of_ok run, ze.target_eq_under own] at changes
    rw [ze.target_eq_under own] at there
    refine ⟨changes.fits kind there fits, ?_⟩
    intro other mem file
    have apart := fits.not_above_parent List.mem_cons_self (List.mem_cons_of_mem ze mem) kind file
    simp [changes.outside _ apart]
  | true =>
    have made := unzipEntry_directory_makes io path kind st
    rw [final_of_ok run, ze.target_eq_under own] at made
    refine ⟨made.fits kind fits, ?_⟩
    intro other mem file parent
    have clear : ∀ dir, dir <:+ ze.target path → ∀ content, st.tree.node dir ≠ some (.file content) := by
      rw [ze.target_eq_under own]
      intro dir above
      exact fits.noFile ze List.mem_cons_self dir above (by simp [kind])
    have directory := unzipEntry_makes_directory quiet kind clear run
    rw [ze.target_eq_under own] at directory
    constructor
    · intro there
      rcases made.added parent with kept | ⟨_, _, above⟩
      · exact Or.inl (kept.symm.trans there)
      · exact Or.inr ⟨rfl, above⟩
    · rintro (there | ⟨_, above⟩)
      · rcases made.added parent with kept | ⟨_, there', _⟩
        · exact kept.trans there
        · exact there'
      · by_cases same : parent = ze.under (FilePath.resolve path)
        · rw [same, directory]
        · exact st'.tree.directory_above above same (by simp [directory])

/-- Without failures the steps all end exactly when the directory entries come first. -/
theorem performAll_quiet_ends_iff (quiet : io.NeverFails) (assets : Bundle) (works : List Work)
    {st : UnzipState} (fits : Fits (zipEntries works) (FilePath.resolve path) st.tree) :
    Ends (performAll io assets path works) st ↔
      DirectoriesFirst (FilePath.resolve path) (fun place => st.tree.node place = some .directory)
        (zipEntries works) := by
  induction works generalizing st with
  | nil =>
    refine ⟨fun _ before ze after split => ?_, fun _ => Ends.pure () st⟩
    simp [zipEntries] at split
  | cons work works ih =>
    rw [performAll]
    cases entry : work.zipEntry with
    | none =>
      have same : zipEntries (work :: works) = zipEntries works := List.filterMap_cons_none entry
      obtain ⟨st', run, kept⟩ := work.perform_of_no_entry quiet assets entry st
      rw [same] at fits ⊢
      rw [ends_bind_of_ok run, ih (kept ▸ fits), kept]
    | some ze =>
      obtain rfl := Work.eq_entry entry
      have same : zipEntries (.entry ze :: works) = ze :: zipEntries works := rfl
      rw [same] at fits ⊢
      have advanced : Fits (ze :: zipEntries works) (FilePath.resolve path) st.advance.tree := fits
      have performed : ((Work.entry ze).perform io assets path).run st =
          (unzipEntry io path ze).run st.advance := Work.perform_entry_of_quiet quiet assets ze st
      have rest {u : Unit} {st' : UnzipState}
          (run : (unzipEntry io path ze).run st.advance = .ok u st') :
          Ends (performAll io assets path works) st' ↔
            DirectoriesFirst (FilePath.resolve path) (fun place =>
              st.tree.node place = some .directory ∨
                ze.isDirectory = true ∧ place <:+ ze.under (FilePath.resolve path))
              (zipEntries works) := by
        obtain ⟨fits', ready⟩ := ready_after_entry quiet advanced run
        rw [ih fits']
        exact directoriesFirst_congr ready
      cases kind : ze.isDirectory with
      | false =>
        simp only [kind, Bool.false_eq_true, false_and, or_false] at rest
        have opens : Ends (unzipEntry io path ze) st.advance ↔
            st.tree.node (ze.under (FilePath.resolve path)).tail = some .directory :=
          unzipEntry_file_ends_of_quiet quiet kind (advanced.normalised ze List.mem_cons_self)
            (advanced.noDirectory ze List.mem_cons_self kind)
        rw [directoriesFirst_cons_file kind, ends_bind_iff, performed]
        constructor
        · rintro ⟨u, st', run, ends⟩
          exact ⟨opens.mp ⟨u, st', run⟩, (rest run).mp ends⟩
        · rintro ⟨parent, first⟩
          obtain ⟨u, st', run⟩ := opens.mpr parent
          exact ⟨u, st', run, (rest run).mpr first⟩
      | true =>
        simp only [kind, true_and] at rest
        obtain ⟨u, st', run⟩ := unzipEntry_directory_ends io kind st.advance
        rw [directoriesFirst_cons_directory kind, ends_bind_of_ok (performed.trans run), rest run]

end Steps

section Variants

variable [Device]

/-- The same archives in some order, each with its entries in some order and without some of
its directory entries. -/
structure Variant (assets variant : Bundle) : Prop where
  archives : (dataZips assets).Perm (dataZips variant)
  entries : ∀ assetName ∈ dataZips assets, ∃ kept : List ZipEntry, kept.Sublist (assets.entries assetName) ∧
    kept.filter (!·.isDirectory) = (assets.entries assetName).filter (!·.isDirectory) ∧
    kept.Perm (variant.entries assetName)

/-- The variant with no directory entry left. -/
def Bundle.filesOnly (assets : Bundle) : Bundle :=
  { assets with entries := fun assetName => (assets.entries assetName).filter (!·.isDirectory) }

theorem Variant.filesOnly (assets : Bundle) : Variant assets assets.filesOnly where
  archives := List.Perm.refl _
  entries assetName _ := by
    refine ⟨_, List.filter_sublist, ?_, List.Perm.refl _⟩
    rw [List.filter_filter]
    simp

theorem Variant.mem {assets variant : Bundle} (h : Variant assets variant) {ze : ZipEntry}
    (mem : ze ∈ variant.allEntries) : ze ∈ assets.allEntries := by
  obtain ⟨assetName, zip, mem⟩ := List.mem_flatMap.mp mem
  have zip' := h.archives.mem_iff.mpr zip
  obtain ⟨kept, sublist, _, perm⟩ := h.entries assetName zip'
  exact List.mem_flatMap.mpr ⟨assetName, zip', sublist.subset (perm.mem_iff.mpr mem)⟩

theorem Variant.mem_of_file {assets variant : Bundle} (h : Variant assets variant) {ze : ZipEntry}
    (file : ze.isDirectory = false) (mem : ze ∈ assets.allEntries) : ze ∈ variant.allEntries := by
  obtain ⟨assetName, zip, mem⟩ := List.mem_flatMap.mp mem
  obtain ⟨kept, _, files, perm⟩ := h.entries assetName zip
  have isKept : ze ∈ kept.filter (!·.isDirectory) := by
    rw [files]
    exact List.mem_filter.mpr ⟨mem, by simp [file]⟩
  refine List.mem_flatMap.mpr ⟨assetName, h.archives.mem_iff.mp zip, ?_⟩
  exact perm.mem_iff.mp (List.mem_filter.mp isKept).1

/-- Unpacking the variant meets no exception and leaves every file of the archives in the
destination, with its bytes. -/
def UnpacksFiles (io : Schedule) (path : String) (st : UnzipState) (assets variant : Bundle) : Prop :=
  Ends (unzipLoops io variant path) { st with assetHashes := [] } ∧
    ∀ ze ∈ assets.allEntries, ze.isDirectory = false →
      (final (unzipAssets io variant path) st).tree.node (ze.under (FilePath.resolve path)) =
        some (.file ze.content)

variable {io : Schedule} {path : String} {st : UnzipState} {assets : Bundle}

theorem unpacksFiles_iff_ends (fits : Fits assets.allEntries (FilePath.resolve path) st.tree)
    {variant : Bundle} (h : Variant assets variant) :
    UnpacksFiles io path st assets variant ↔
      Ends (unzipLoops io variant path) { st with assetHashes := [] } := by
  refine and_iff_left_of_imp fun ends ze mem file => ?_
  have laid := unzipAssets_ended io variant path ends
  have own : (ze.under (FilePath.resolve path), FileNode.file ze.content) ∈
      fileWrites path variant.allEntries := by
    rw [mem_fileWrites, ← ze.target_eq_under (fits.normalised ze mem)]
    exact ⟨ze, h.mem_of_file file mem, file, rfl⟩
  cases last : lastWrite (fileWrites path variant.allEntries) (ze.under (FilePath.resolve path)) with
  | none => exact absurd last (lastWrite_ne_none own)
  | some node =>
    obtain ⟨other, mem', file', same⟩ := mem_fileWrites.mp (lastWrite_mem last)
    obtain ⟨place, rfl⟩ := Prod.mk.inj same
    rw [other.target_eq_under (fits.normalised other (h.mem mem'))] at place
    have above : ze.under (FilePath.resolve path) <:+ other.under (FilePath.resolve path) := by
      rw [place]
    obtain rfl := fits.same_of_under mem (h.mem mem') file above
    exact laid.written last

theorem unpacksFiles_iff_directoriesFirst (quiet : io.NeverFails)
    (fits : Fits assets.allEntries (FilePath.resolve path) st.tree) {variant : Bundle}
    (h : Variant assets variant) :
    UnpacksFiles io path st assets variant ↔
      DirectoriesFirst (FilePath.resolve path) (fun place => st.tree.node place = some .directory)
        variant.allEntries := by
  have fits' : Fits (zipEntries (unpackProgram variant)) (FilePath.resolve path) st.tree := by
    rw [unpackProgram_zipEntries]
    exact fits.mono fun ze mem => h.mem mem
  have ends := performAll_quiet_ends_iff quiet variant (unpackProgram variant)
    (show Fits _ _ ({ st with assetHashes := [] } : UnzipState).tree from fits')
  rw [unpackProgram_zipEntries] at ends
  rw [unpacksFiles_iff_ends fits h, ← ends, unzipLoops_ends_iff]

/-- A variant unpacks exactly when its directory entries come first; all variants do exactly
when the directories of all files are there already. -/
theorem unpacksFiles_iff (quiet : io.NeverFails)
    (fits : Fits assets.allEntries (FilePath.resolve path) st.tree) :
    ((∀ variant, Variant assets variant → UnpacksFiles io path st assets variant) ↔
      ∀ ze ∈ assets.allEntries, ze.isDirectory = false →
        st.tree.node (ze.under (FilePath.resolve path)).tail = some .directory) ∧
    ∀ variant, Variant assets variant →
      (UnpacksFiles io path st assets variant ↔
        DirectoriesFirst (FilePath.resolve path) (fun place => st.tree.node place = some .directory)
          variant.allEntries) := by
  have each {variant : Bundle} (h : Variant assets variant) :=
    unpacksFiles_iff_directoriesFirst quiet fits h
  refine ⟨⟨?_, ?_⟩, fun variant h => each h⟩
  · intro all ze mem file
    have bare := Variant.filesOnly assets
    obtain ⟨before, after, split⟩ := List.append_of_mem (bare.mem_of_file file mem)
    rcases (each bare).mp (all _ bare) before ze after split file with there | ⟨directory, mem', kind, _⟩
    · exact there
    · -- no directory entry is left in this variant
      have inside : directory ∈ assets.filesOnly.allEntries := by
        rw [split]
        exact List.mem_append_left _ mem'
      obtain ⟨assetName, _, inside⟩ := List.mem_flatMap.mp inside
      simp [Bundle.filesOnly, kind] at inside
  · intro ready variant h
    refine (each h).mpr fun before ze after split file => Or.inl ?_
    exact ready ze (h.mem (by simp [split])) file

end Variants

section Concrete

attribute [local instance] emulator

/-- An external storage that holds the CD image. -/
def UnzipState.sdcard : UnzipState where
  tree := FileTree.ofFiles [["XCOM.iso", "sdcard"]] [] (by decide)
  clock := 0
  mPrefs := Preferences.empty
  assetHashes := []

theorem fits_release :
    Fits (Bundle.release [1] none).allEntries (FilePath.resolve "/sdcard") UnzipState.sdcard.tree where
  normalised := by
    unfold ZipEntry.Normalised
    decide +kernel
  apart := by decide +kernel
  destination := by decide +kernel
  noFile := by
    have clear : ∀ ze ∈ (Bundle.release [1] none).allEntries,
        ∀ place ∈ (ze.under (FilePath.resolve "/sdcard")).tails,
          UnzipState.sdcard.tree.node place = none ∨
            UnzipState.sdcard.tree.node place = some .directory := by
      decide +kernel
    intro ze mem place above _ content
    rcases clear ze mem place ((List.mem_tails _ _).mpr above) with free | directory
    · simp [free]
    · simp [directory]
  noDirectory := by decide +kernel

/-- The archive unpacks as it is built, but not without its directory entry. -/
theorem unpacksFiles_release :
    UnpacksFiles .quiet "/sdcard" .sdcard (.release [1] none) (.release [1] none) ∧
      ¬UnpacksFiles .quiet "/sdcard" .sdcard (.release [1] none) (Bundle.filesOnly (.release [1] none)) := by
  have quiet : Schedule.quiet.NeverFails := fun _ => rfl
  obtain ⟨_, each⟩ := unpacksFiles_iff quiet fits_release
  have built : Variant (.release [1] none) (.release [1] none) :=
    ⟨List.Perm.refl _, fun _ _ => ⟨_, List.Sublist.refl _, rfl, List.Perm.refl _⟩⟩
  have whole : (Bundle.release [1] none).allEntries = [⟨"data/", []⟩, ⟨"data/rules.xml", [1]⟩] := by
    decide +kernel
  have bare : (Bundle.filesOnly (.release [1] none)).allEntries = [⟨"data/rules.xml", [1]⟩] := by
    decide +kernel
  rw [each _ built, each _ (Variant.filesOnly _), whole, bare,
    directoriesFirst_cons_directory (by decide +kernel),
    directoriesFirst_cons_file (by decide +kernel), directoriesFirst_cons_file (by decide +kernel)]
  refine ⟨⟨by decide +kernel, ?_⟩, ?_⟩
  · intro before ze after split
    simp at split
  · rintro ⟨there, _⟩
    exact absurd there (by decide +kernel)

/-- Without its directory entry the one file of the archive is not unpacked. -/
theorem not_unpacksFiles_filesOnly :
    Schedule.quiet.NeverFails ∧
      Fits (Bundle.release [1] none).allEntries (FilePath.resolve "/sdcard") UnzipState.sdcard.tree ∧
      ¬∀ variant, Variant (.release [1] none) variant →
        UnpacksFiles .quiet "/sdcard" .sdcard (.release [1] none) variant := by
  refine ⟨fun _ => rfl, fits_release, ?_⟩
  intro all
  have ends := (all _ (Variant.filesOnly _)).1
  exact absurd ends (by decide +kernel)

end Concrete

end OpenApocLauncher
