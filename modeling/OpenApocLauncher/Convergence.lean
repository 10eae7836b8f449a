import OpenApocLauncher.DirectoryEntries
import OpenApocLauncher.Machine
import OpenApocLauncher.UpdateDetection

namespace OpenApocLauncher

open AssetUnzipper Effects Overlay Machine

/-- What unpacking these entries may do to a tree, wherever it stops: a file entry's place may
hold other bytes or become a file, and a place above a directory entry may become a directory. -/
def Touched (path : String) (entries : List ZipEntry) (tree tree' : FileTree String (List UInt8)) :
    Prop :=
  ∀ place, tree'.node place = tree.node place ∨
    (tree.node place ≠ some .directory ∧ (∃ bytes, tree'.node place = some (.file bytes)) ∧
      ∃ ze ∈ entries, ze.isDirectory = false ∧ ze.target path = place) ∨
    (tree.node place = none ∧ tree'.node place = some .directory ∧
      ∃ ze ∈ entries, ze.isDirectory = true ∧ place <:+ ze.target path)

section Touched

variable {path : String} {entries : List ZipEntry} {tree tree' tree'' : FileTree String (List UInt8)}

theorem Touched.refl : Touched path entries tree tree := fun _ => Or.inl rfl

theorem Touched.trans (first : Touched path entries tree tree')
    (second : Touched path entries tree' tree'') : Touched path entries tree tree'' := by
  intro place
  rcases second place with same | ⟨free, file, target⟩ | ⟨absent, made, above⟩
  · rw [same]
    exact first place
  · refine Or.inr (Or.inl ⟨?_, file, target⟩)
    rcases first place with same | ⟨free', _⟩ | ⟨_, made, _⟩
    · rwa [← same]
    · exact free'
    · exact absurd made free
  · refine Or.inr (Or.inr ⟨?_, made, above⟩)
    rcases first place with same | ⟨_, ⟨bytes, file⟩, _⟩ | ⟨absent', _⟩
    · rwa [← same]
    · simp [file] at absent
    · exact absent'

/-- What an entry touches depends on its name alone. -/
theorem Touched.mono {entries' : List ZipEntry} (touched : Touched path entries tree tree')
    (sub : ∀ ze ∈ entries, ∃ ze' ∈ entries', ze'.name = ze.name) : Touched path entries' tree tree' := by
  have known {ze : ZipEntry} (mem : ze ∈ entries) : ∃ ze' ∈ entries',
      ze'.isDirectory = ze.isDirectory ∧ ze'.target path = ze.target path := by
    obtain ⟨ze', mem', same⟩ := sub ze mem
    exact ⟨ze', mem', by rw [ZipEntry.isDirectory, same]; rfl, by rw [ZipEntry.target, same]; rfl⟩
  intro place
  rcases touched place with same | ⟨free, file, ze, mem, kind, target⟩ | ⟨absent, made, ze, mem, kind, above⟩
  · exact Or.inl same
  · obtain ⟨ze', mem', kind', target'⟩ := known mem
    exact Or.inr (Or.inl ⟨free, file, ze', mem', kind'.trans kind, target'.trans target⟩)
  · obtain ⟨ze', mem', kind', target'⟩ := known mem
    refine Or.inr (Or.inr ⟨absent, made, ze', mem', kind'.trans kind, ?_⟩)
    rwa [target']

theorem Touched.directory (touched : Touched path entries tree tree') {place : FilePath}
    (h : tree.node place = some .directory) : tree'.node place = some .directory := by
  rcases touched place with same | ⟨free, _⟩ | ⟨absent, _⟩
  · exact same.trans h
  · exact absurd h free
  · simp [h] at absent

theorem Touched.file (touched : Touched path entries tree tree') {place : FilePath}
    {content : List UInt8} (h : tree.node place = some (.file content)) :
    ∃ bytes, tree'.node place = some (.file bytes) := by
  rcases touched place with same | ⟨_, file, _⟩ | ⟨absent, _⟩
  · exact ⟨content, same.trans h⟩
  · exact file
  · simp [h] at absent

/-- Unpacking the entries to their end over what earlier attempts left is unpacking them over
the tree those began with. -/
theorem Touched.overlaid (touched : Touched path entries tree tree')
    (laid : Overlaid path entries tree' tree'') : Overlaid path entries tree tree'' := by
  intro place
  cases last : lastWrite (fileWrites path entries) place with
  | some node => exact Or.inl ((laid.written last).trans (overlay_of_some last).symm)
  | none =>
    rw [overlay_of_none last]
    have unwritten : ∀ ze ∈ entries, ze.isDirectory = false → ze.target path ≠ place := by
      rintro ze mem file rfl
      exact lastWrite_ne_none (mem_fileWrites.mpr ⟨ze, mem, file, rfl⟩) last
    rcases laid.unwritten last with same | ⟨absent, made, above⟩
    · rw [same]
      rcases touched place with same' | ⟨_, _, ze, mem, file, target⟩ | ⟨absent, made, above⟩
      · exact Or.inl same'
      · exact absurd target (unwritten ze mem file)
      · exact Or.inr ⟨absent, made, above⟩
    · rcases touched place with same' | ⟨_, _, ze, mem, file, target⟩ | ⟨_, made', _⟩
      · exact Or.inr ⟨same' ▸ absent, made, above⟩
      · exact absurd target (unwritten ze mem file)
      · simp [made'] at absent

end Touched

/-- No further `mkdirs` of the place will do anything: the directory is there, or a file stands
in its way. -/
def Settled (tree : FileTree String (List UInt8)) (place : FilePath) : Prop :=
  tree.node place = some .directory ∨
    ∃ file content, file <:+ place ∧ tree.node file = some (.file content)

theorem Touched.settled {path : String} {entries : List ZipEntry}
    {tree tree' : FileTree String (List UInt8)} (touched : Touched path entries tree tree')
    {place : FilePath} (h : Settled tree place) : Settled tree' place := by
  rcases h with directory | ⟨file, content, above, there⟩
  · exact Or.inl (touched.directory directory)
  · obtain ⟨bytes, there'⟩ := touched.file there
    exact Or.inr ⟨file, bytes, above, there'⟩

section Agree

variable {path : String} {entries entries' : List ZipEntry}
  {tree tree₁ tree₂ : FileTree String (List UInt8)}

/-- A file of one result is a file of any other. -/
theorem file_of_overlaid (laid₁ : Overlaid path entries tree tree₁)
    (laid₂ : Overlaid path entries' tree tree₂)
    (writes : ∀ place, lastWrite (fileWrites path entries) place =
      lastWrite (fileWrites path entries') place) {file : FilePath} {content : List UInt8}
    (there : tree₁.node file = some (.file content)) : tree₂.node file = some (.file content) := by
  cases last : lastWrite (fileWrites path entries) file with
  | some node =>
    have written := laid₁.written last
    rw [there] at written
    rw [laid₂.written (writes file ▸ last), written]
  | none =>
    rcases laid₁.unwritten last with same | ⟨_, made, _⟩
    · rcases laid₂.unwritten (writes file ▸ last) with same' | ⟨absent, _⟩
      · rw [same', ← same, there]
      · simp [← same, there] at absent
    · simp [there] at made

theorem there_of_made (laid₁ : Overlaid path entries tree tree₁)
    (laid₂ : Overlaid path entries' tree tree₂)
    (writes : ∀ place, lastWrite (fileWrites path entries) place =
      lastWrite (fileWrites path entries') place) {place target : FilePath}
    (settled : Settled tree₁ target) (above : place <:+ target)
    (made : tree₂.node place = some .directory) : tree₁.node place ≠ none := by
  intro absent
  rcases settled with directory | ⟨file, content, above', there⟩
  · by_cases same : place = target
    · rw [same, directory] at absent
      simp at absent
    · simp [tree₁.directory_above above same (by simp [directory])] at absent
  · have notSame : file ≠ place := by
      rintro rfl
      simp [there] at absent
    rcases List.suffix_or_suffix_of_suffix above above' with up | down
    · simp [tree₁.directory_above up notSame.symm (by simp [there])] at absent
    · -- the file stands above a directory of the other tree, where it is a file, too
      have directory := tree₂.directory_above down notSame (by simp [made])
      simp [file_of_overlaid laid₁ laid₂ writes there] at directory

/-- Results that are settled at all directory entries are the same tree. -/
theorem Overlaid.unique (laid₁ : Overlaid path entries tree tree₁)
    (laid₂ : Overlaid path entries' tree tree₂)
    (writes : ∀ place, lastWrite (fileWrites path entries) place =
      lastWrite (fileWrites path entries') place)
    (mem : ∀ ze, ze ∈ entries ↔ ze ∈ entries')
    (settled₁ : ∀ ze ∈ entries, ze.isDirectory = true → Settled tree₁ (ze.target path))
    (settled₂ : ∀ ze ∈ entries, ze.isDirectory = true → Settled tree₂ (ze.target path)) :
    tree₁ = tree₂ := by
  have nodes : tree₁.node = tree₂.node := by
    funext place
    cases last : lastWrite (fileWrites path entries) place with
    | some node => rw [laid₁.written last, laid₂.written (writes place ▸ last)]
    | none =>
      rcases laid₁.unwritten last with same | ⟨absent, made, ze, inside, kind, above⟩
      · rcases laid₂.unwritten (writes place ▸ last) with same' | ⟨absent, made, ze, inside, kind, above⟩
        · rw [same, same']
        · have there := there_of_made laid₁ laid₂ writes
            (settled₁ ze ((mem ze).mpr inside) kind) above made
          exact absurd (same.trans absent) there
      · rcases laid₂.unwritten (writes place ▸ last) with same' | ⟨_, made', _⟩
        · have there := there_of_made laid₂ laid₁ (fun place => (writes place).symm)
            (settled₂ ze inside kind) above made
          exact absurd (same'.trans absent) there
        · rw [made, made']
  cases tree₁
  cases tree₂
  cases nodes
  rfl

end Agree

section Perform

variable {io : Schedule} {path : String}

theorem unzipEntry_touched (ze : ZipEntry) (st : UnzipState) :
    Touched path [ze] st.tree (final (unzipEntry io path ze) st).tree := by
  cases kind : ze.isDirectory with
  | true =>
    have made := unzipEntry_directory_makes io path kind st
    intro place
    rcases made.added place with same | ⟨absent, there, above⟩
    · exact Or.inl same
    · exact Or.inr (Or.inr ⟨absent, there, ze, List.mem_singleton_self ze, kind, above⟩)
  | false =>
    have written (file : ∃ bytes, (final (unzipEntry io path ze) st).tree.node (ze.target path) =
          some (.file bytes))
        (free : st.tree.node (ze.target path) ≠ some .directory) :
        Touched path [ze] st.tree (final (unzipEntry io path ze) st).tree := by
      intro place
      by_cases own : place = ze.target path
      · subst own
        exact Or.inr (Or.inl ⟨free, file, ze, List.mem_singleton_self ze, kind, rfl⟩)
      · exact Or.inl ((unzipEntry_file_changes io path kind st).outside place own)
    cases run : (unzipEntry io path ze).run st with
    | ok u st' =>
      apply written
      · rw [final_of_ok run]
        exact ⟨ze.content, unzipEntry_ok io kind run⟩
      · simp only [unzipEntry, kind, Bool.false_eq_true, if_false] at run
        obtain ⟨_, st₁, created, _⟩ := bind_ok run
        obtain ⟨made, _, stored, _⟩ := create_ok io created
        exact (FileTree.store_node stored).1
    | error e st' =>
      rcases unzipEntry_torn io run with same | torn
      · rw [final_of_error run, same]
        exact Touched.refl
      · obtain ⟨part, _, there⟩ := torn.part
        rw [final_of_error run] at written
        rw [final_of_error run]
        exact written ⟨part, there⟩ torn.before

/-- `Touched`, for the states of an unpack. -/
def TouchedBy (path : String) (entries : List ZipEntry) (st st' : UnzipState) : Prop :=
  Touched path entries st.tree st'.tree

instance (path : String) (entries : List ZipEntry) : IsTrans UnzipState (TouchedBy path entries) :=
  ⟨fun _ _ _ => Touched.trans⟩

theorem attempt_touchedBy (entries : List ZipEntry) :
    Within (TouchedBy path entries) (Io.attempt io) := by
  intro st
  rw [final_attempt]
  exact Touched.refl

theorem Work.perform_touchedBy (assets : Bundle) {entries : List ZipEntry} {work : Work}
    (sub : ∀ ze ∈ work.zipEntry, ze ∈ entries) :
    Within (TouchedBy path entries) (work.perform io assets path) := by
  cases work with
  | list => exact attempt_touchedBy entries
  | openAsset assetName => exact attempt_touchedBy entries
  | entry ze =>
    have own : ∀ other ∈ [ze], ∃ ze' ∈ entries, ze'.name = other.name := by
      intro other mem
      obtain rfl := List.mem_singleton.mp mem
      exact ⟨other, sub other rfl, rfl⟩
    apply Within.bind (attempt_touchedBy entries)
    intro _ st
    exact (unzipEntry_touched ze st).mono own
  | closeAsset assetName =>
    apply Within.bind (attempt_touchedBy entries)
    intro _ st
    exact Touched.refl

/-- The steps of an unpack touch what their entries may touch, however they end. -/
theorem performAll_touchedBy (assets : Bundle) {entries : List ZipEntry} {works : List Work}
    (sub : ∀ ze ∈ zipEntries works, ze ∈ entries) :
    Within (TouchedBy path entries) (performAll io assets path works) := by
  induction works with
  | nil => exact fun st => Touched.refl
  | cons work works ih =>
    rw [zipEntries_cons] at sub
    apply Within.bind
    · apply Work.perform_touchedBy
      intro ze own
      exact sub ze (List.mem_append_left _ (Option.mem_toList.mpr own))
    · intro _
      exact ih fun ze mem => sub ze (List.mem_append_right _ mem)

theorem unzipEntry_settled (quiet : io.NeverFails) {ze : ZipEntry} (kind : ze.isDirectory = true)
    {st st' : UnzipState} {u : Unit} (run : (unzipEntry io path ze).run st = .ok u st') :
    Settled st'.tree (ze.target path) := by
  by_cases clear : ∀ dir, dir <:+ ze.target path → ∀ content, st.tree.node dir ≠ some (.file content)
  · exact Or.inl (unzipEntry_makes_directory quiet kind clear run)
  · push Not at clear
    obtain ⟨file, above, content, there⟩ := clear
    have made := unzipEntry_directory_makes io path kind st
    rw [final_of_ok run] at made
    rcases made.added file with same | ⟨absent, _⟩
    · exact Or.inr ⟨file, content, above, same.trans there⟩
    · simp [there] at absent

/-- Steps that end without failures settle every directory entry among them. -/
theorem performAll_settled (quiet : io.NeverFails) (assets : Bundle) {works : List Work}
    {st st' : UnzipState} {u : Unit} (h : (performAll io assets path works).run st = .ok u st') :
    ∀ ze ∈ zipEntries works, ze.isDirectory = true → Settled st'.tree (ze.target path) := by
  induction works generalizing st with
  | nil =>
    intro ze mem
    simp [zipEntries] at mem
  | cons work works ih =>
    obtain ⟨_, st₁, first, rest⟩ := bind_ok h
    intro ze mem kind
    rw [zipEntries_cons] at mem
    rcases List.mem_append.mp mem with own | later
    · obtain rfl := Work.eq_entry (Option.mem_toList.mp own)
      have unzipped : (unzipEntry io path ze).run st.advance = .ok () st₁ := by
        rwa [← Work.perform_entry_of_quiet quiet assets]
      have touched : TouchedBy path (zipEntries works) st₁
          (final (performAll io assets path works) st₁) :=
        performAll_touchedBy assets (fun _ mem => mem) st₁
      rw [final_of_ok rest] at touched
      exact touched.settled (unzipEntry_settled quiet kind unzipped)
    · exact ih rest ze later kind

end Perform

theorem Fits.touched {path : String} {entries : List ZipEntry}
    {tree tree' : FileTree String (List UInt8)} (fits : Fits entries (FilePath.resolve path) tree)
    (touched : Touched path entries tree tree') : Fits entries (FilePath.resolve path) tree' := by
  refine ⟨fits.normalised, fits.apart, touched.directory fits.destination, ?_, ?_⟩
  · intro ze mem place above proper content there
    rcases touched place with same | ⟨_, _, other, mem', file, target⟩ | ⟨_, made, _⟩
    · exact fits.noFile ze mem place above proper content (same.symm.trans there)
    · rw [other.target_eq_under (fits.normalised other mem')] at target
      obtain rfl := fits.same_of_under mem' mem file (target ▸ above)
      exact proper file target.symm
    · simp [there] at made
  · intro ze mem file directory
    rcases touched (ze.under (FilePath.resolve path)) with same | ⟨_, ⟨bytes, there⟩, _⟩ |
      ⟨_, _, other, mem', kind, above⟩
    · exact fits.noDirectory ze mem file (same.symm.trans directory)
    · simp [there] at directory
    · rw [other.target_eq_under (fits.normalised other mem')] at above
      obtain rfl := fits.same_of_under mem mem' file above
      simp [file] at kind

section Attempts

variable [Device] {path : String}

/-- One attempt to unpack a bundle, under its own failures and reads. -/
def unpack (path : String) (st : UnzipState) (attempt : Schedule × Bundle) : UnzipState :=
  final (unzipAssets attempt.1 attempt.2 path) st

/-- The attempt gets to its end. -/
def Completes (path : String) (st : UnzipState) (attempt : Schedule × Bundle) : Prop :=
  Ends (unzipLoops attempt.1 attempt.2 path) { st with assetHashes := [] }

/-- All entries of the attempted bundles have the name of one of these. -/
def KnownNames (entries : List ZipEntry) (attempts : List (Schedule × Bundle)) : Prop :=
  ∀ attempt ∈ attempts, ∀ ze ∈ attempt.2.allEntries, ∃ ze' ∈ entries, ze'.name = ze.name

theorem unpack_touched (path : String) (st : UnzipState) (attempt : Schedule × Bundle) :
    Touched path attempt.2.allEntries st.tree (unpack path st attempt).tree := by
  rw [unpack, unzipAssets_tree]
  apply performAll_touchedBy
  intro ze mem
  rwa [unpackProgram_zipEntries] at mem

theorem Completes.overlaid {st : UnzipState} {attempt : Schedule × Bundle}
    (complete : Completes path st attempt) :
    Overlaid path attempt.2.allEntries st.tree (unpack path st attempt).tree :=
  unzipAssets_ended attempt.1 attempt.2 path complete

theorem Completes.settled {st : UnzipState} {attempt : Schedule × Bundle}
    (complete : Completes path st attempt) (quiet : attempt.1.NeverFails) :
    ∀ ze ∈ attempt.2.allEntries, ze.isDirectory = true →
      Settled (unpack path st attempt).tree (ze.target path) := by
  obtain ⟨u, st', h⟩ := (unzipLoops_ends_iff attempt.1 attempt.2 path _).mp complete
  rw [unpack, unzipAssets_tree, final_of_ok h, ← unpackProgram_zipEntries]
  exact performAll_settled quiet attempt.2 h

theorem Completes.record {st : UnzipState} {attempt : Schedule × Bundle}
    (complete : Completes path st attempt) :
    Config.getOptionSet (unpack path st attempt).mPrefs .androidDataHash =
      .ok (recordLines (getAssetHash attempt.2) (dataZips attempt.2)) :=
  unzipAssets_getOptionSet (.complete rfl ((unzipLoops_ends_iff attempt.1 attempt.2 path _).mp complete))

/-- Attempts one after the other touch no more than one attempt. -/
theorem attempts_touched (path : String) {entries : List ZipEntry}
    {attempts : List (Schedule × Bundle)} (known : KnownNames entries attempts) (st : UnzipState) :
    Touched path entries st.tree (run (unpack path) st attempts).tree := by
  induction attempts generalizing st with
  | nil => exact Touched.refl
  | cons attempt attempts ih =>
    have first := (unpack_touched path st attempt).mono (known attempt List.mem_cons_self)
    have later := ih (fun other mem => known other (List.mem_cons_of_mem attempt mem))
      (unpack path st attempt)
    exact first.trans later

/-- Whatever attempts came before and wherever each stopped, one that gets to its end leaves
the tree that the first began with, overlaid with its own entries, and the record of all
archives. -/
theorem unpack_converges {attempts : List (Schedule × Bundle)} {st : UnzipState} {io : Schedule}
    {assets : Bundle} (known : KnownNames assets.allEntries attempts)
    (complete : Completes path (run (unpack path) st attempts) (io, assets)) :
    let after := run (unpack path) st (attempts ++ [(io, assets)])
    Overlaid path assets.allEntries st.tree after.tree ∧
      Config.getOptionSet after.mPrefs .androidDataHash =
        .ok (recordLines (getAssetHash assets) (dataZips assets)) := by
  rw [run_concat]
  exact ⟨(attempts_touched path known st).overlaid complete.overlaid, complete.record⟩

/-- After an attempt that met no failure, no number of further attempts changes the tree, as
long as the last gets to its end. -/
theorem unpack_again {attempts : List (Schedule × Bundle)} {st : UnzipState} {io io' : Schedule}
    {assets : Bundle} (quiet : io.NeverFails) (complete : Completes path st (io, assets))
    (known : KnownNames assets.allEntries attempts)
    (again : Completes path (run (unpack path) st ((io, assets) :: attempts)) (io', assets)) :
    (run (unpack path) st ((io, assets) :: attempts ++ [(io', assets)])).tree =
      (unpack path st (io, assets)).tree := by
  rw [run_concat]
  have first := complete.settled quiet
  have between := attempts_touched path known (unpack path st (io, assets))
  have last := unpack_touched path (run (unpack path) st ((io, assets) :: attempts)) (io', assets)
  have touched := (unpack_touched path st (io, assets)).trans between
  apply (touched.overlaid again.overlaid).unique complete.overlaid (fun _ => rfl) (fun _ => Iff.rfl)
  · intro ze mem kind
    exact (between.trans last).settled (first ze mem kind)
  · exact first

/-- Over a tree that the entries fit, an attempt without failures completes after any number of
failed ones if it completes without them, and leaves the same tree. -/
theorem unpack_recovers {attempts : List (Schedule × Bundle)} {st : UnzipState} {io io' : Schedule}
    {assets : Bundle} (quiet : io.NeverFails) (quiet' : io'.NeverFails)
    (fits : Fits assets.allEntries (FilePath.resolve path) st.tree)
    (complete : Completes path st (io, assets)) (known : KnownNames assets.allEntries attempts) :
    Completes path (run (unpack path) st attempts) (io', assets) ∧
      (run (unpack path) st (attempts ++ [(io', assets)])).tree = (unpack path st (io, assets)).tree := by
  have touched := attempts_touched path known st
  have ordered {io : Schedule} (quiet : io.NeverFails) {st : UnzipState}
      (fits : Fits assets.allEntries (FilePath.resolve path) st.tree) :
      Completes path st (io, assets) ↔
        DirectoriesFirst (FilePath.resolve path) (fun place => st.tree.node place = some .directory)
          assets.allEntries := by
    rw [Completes, unzipLoops_ends_iff, ← unpackProgram_zipEntries]
    apply performAll_quiet_ends_iff quiet
    rwa [unpackProgram_zipEntries]
  have again : Completes path (run (unpack path) st attempts) (io', assets) := by
    refine (ordered quiet' (fits.touched touched)).mpr ?_
    intro before ze after split file
    rcases (ordered quiet fits).mp complete before ze after split file with there | earlier
    · exact Or.inl (touched.directory there)
    · exact Or.inr earlier
  refine ⟨again, ?_⟩
  rw [run_concat]
  exact (touched.overlaid again.overlaid).unique complete.overlaid (fun _ => rfl) (fun _ => Iff.rfl)
    (again.settled quiet') (complete.settled quiet)

/-- The same archives, listed in another order. -/
structure Reordered (assets assets' : Bundle) : Prop where
  archives : (dataZips assets).Perm (dataZips assets')
  entries : ∀ assetName ∈ dataZips assets, assets'.entries assetName = assets.entries assetName
  hashes : ∀ assetName ∈ dataZips assets,
    getAssetHash assets' assetName = getAssetHash assets assetName

/-- No two archives of the bundle write one file. -/
def ApartArchives (path : String) (assets : Bundle) : Prop :=
  (dataZips assets).Pairwise fun first second =>
    ∀ write ∈ fileWrites path (assets.entries first), ∀ write' ∈ fileWrites path (assets.entries second),
      write.1 ≠ write'.1

theorem fileWrites_allEntries (path : String) (assets : Bundle) :
    fileWrites path assets.allEntries =
      (dataZips assets).flatMap fun assetName => fileWrites path (assets.entries assetName) :=
  List.flatMap_assoc

theorem Reordered.mem_allEntries {assets assets' : Bundle} (h : Reordered assets assets')
    (ze : ZipEntry) : ze ∈ assets.allEntries ↔ ze ∈ assets'.allEntries := by
  unfold Bundle.allEntries
  rw [List.mem_flatMap, List.mem_flatMap]
  constructor
  · rintro ⟨assetName, zip, mem⟩
    exact ⟨assetName, h.archives.mem_iff.mp zip, by rwa [h.entries assetName zip]⟩
  · rintro ⟨assetName, zip, mem⟩
    have zip' := h.archives.mem_iff.mpr zip
    exact ⟨assetName, zip', by rwa [← h.entries assetName zip']⟩

theorem Reordered.writes {assets assets' : Bundle} (h : Reordered assets assets')
    (apart : ApartArchives path assets) (place : FilePath) :
    lastWrite (fileWrites path assets.allEntries) place =
      lastWrite (fileWrites path assets'.allEntries) place := by
  have own : (dataZips assets').flatMap (fun assetName => fileWrites path (assets'.entries assetName)) =
      (dataZips assets').flatMap fun assetName => fileWrites path (assets.entries assetName) := by
    apply List.flatMap_congr
    intro assetName zip
    rw [h.entries assetName (h.archives.mem_iff.mpr zip)]
  rw [fileWrites_allEntries, fileWrites_allEntries, own]
  exact lastWrite_flatMap_perm h.archives apart place

theorem Completes.mPrefs {st : UnzipState} {attempt : Schedule × Bundle}
    (complete : Completes path st attempt) :
    (unpack path st attempt).mPrefs = Config.setOptionSet st.mPrefs .androidDataHash
      (recordLines (getAssetHash attempt.2) (dataZips attempt.2)) := by
  have ends := (unzipLoops_ends_iff attempt.1 attempt.2 path _).mp complete
  rw [unpack, unzipAssets_record attempt.1 attempt.2 path (.complete rfl ends)]
  simp [assetHashSet, hashesOf, recordLines, Function.comp_def]

/-- The order in which the assets are listed shows in no result: neither in the tree nor in
the preferences. -/
theorem unpack_order {st : UnzipState} {io io' : Schedule} {assets assets' : Bundle}
    (h : Reordered assets assets') (apart : ApartArchives path assets)
    (quiet : io.NeverFails) (quiet' : io'.NeverFails) (complete : Completes path st (io, assets))
    (complete' : Completes path st (io', assets')) :
    (unpack path st (io, assets)).tree = (unpack path st (io', assets')).tree ∧
      (unpack path st (io, assets)).mPrefs = (unpack path st (io', assets')).mPrefs := by
  constructor
  · apply complete.overlaid.unique complete'.overlaid (h.writes apart) h.mem_allEntries
      (complete.settled quiet)
    intro ze mem
    exact complete'.settled quiet' ze ((h.mem_allEntries ze).mp mem)
  · rw [complete.mPrefs, complete'.mPrefs]
    congr 1
    exact recordLines_congr (fun assetName => h.archives.mem_iff)
      fun assetName zip => (h.hashes assetName zip).symm

end Attempts

section Concrete

attribute [local instance] emulator

/-- The bundle of a game and of its mods, listed in some order. -/
def Bundle.modded (names : List String) (nodup : names.Nodup) : Bundle where
  names := names
  nodup := nodup
  entries assetName :=
    if assetName = "data.zip" then [⟨"data/", []⟩, ⟨"data/rules.xml", [1]⟩]
    else [⟨"mods/", []⟩, ⟨"mods/rules.xml", [2]⟩]
  text _ := none

theorem allEntries_release (content : List UInt8) (md5 : Option String) :
    (Bundle.release content md5).allEntries = [⟨"data/", []⟩, ⟨"data/rules.xml", content⟩] := by
  have zips : dataZips (Bundle.release content md5) = ["data.zip"] := by
    change ["data.zip", "data.zip.md5"].filter isDataZip = ["data.zip"]
    decide +kernel
  rw [Bundle.allEntries, zips]
  rfl

theorem knownNames_release (content content' : List UInt8) (md5 md5' : Option String)
    (io : Schedule) :
    KnownNames (Bundle.release content md5).allEntries [(io, .release content' md5')] := by
  intro attempt mem ze inside
  obtain rfl := List.mem_singleton.mp mem
  rw [allEntries_release] at inside ⊢
  rcases List.mem_cons.mp inside with rfl | last
  · exact ⟨_, List.mem_cons_self, rfl⟩
  · obtain rfl := List.mem_singleton.mp last
    exact ⟨⟨"data/rules.xml", content⟩, by simp, rfl⟩

/-- An update that stopped in the old release is made good by one to the new release. -/
theorem unpack_converges_release :
    let after := run (unpack "/sdcard") .sdcard
      [(.failingAt 5, .release [1] (some "7c3f")), (.quiet, .release [2] (some "5e01"))]
    Overlaid "/sdcard" (Bundle.release [2] (some "5e01")).allEntries UnzipState.sdcard.tree after.tree ∧
      Config.getOptionSet after.mPrefs .androidDataHash =
        .ok (recordLines (getAssetHash (.release [2] (some "5e01")))
          (dataZips (.release [2] (some "5e01")))) := by
  have complete : Completes "/sdcard"
      (run (unpack "/sdcard") .sdcard [(.failingAt 5, .release [1] (some "7c3f"))])
      (.quiet, .release [2] (some "5e01")) := by
    unfold Completes
    decide +kernel
  exact unpack_converges (knownNames_release _ _ _ _ _) complete

theorem unpack_again_release :
    (run (unpack "/sdcard") .sdcard
        [(.quiet, .release [1] none), (.failingAt 5, .release [1] none), (.quiet, .release [1] none)]).tree =
      (unpack "/sdcard" .sdcard (.quiet, .release [1] none)).tree := by
  have complete : Completes "/sdcard" .sdcard (.quiet, .release [1] none) := by
    unfold Completes
    decide +kernel
  have again : Completes "/sdcard" (run (unpack "/sdcard") .sdcard
      [(.quiet, .release [1] none), (.failingAt 5, .release [1] none)]) (.quiet, .release [1] none) := by
    unfold Completes
    decide +kernel
  exact unpack_again (fun _ => rfl) complete (knownNames_release _ _ _ _ (.failingAt 5)) again

theorem unpack_recovers_release :
    Completes "/sdcard" (run (unpack "/sdcard") .sdcard [(.failingAt 5, .release [1] none)])
        (.quiet, .release [1] none) ∧
      (run (unpack "/sdcard") .sdcard
          [(.failingAt 5, .release [1] none), (.quiet, .release [1] none)]).tree =
        (unpack "/sdcard" .sdcard (.quiet, .release [1] none)).tree := by
  have quiet : Schedule.quiet.NeverFails := fun _ => rfl
  have complete : Completes "/sdcard" .sdcard (.quiet, .release [1] none) := by
    unfold Completes
    decide +kernel
  exact unpack_recovers quiet quiet fits_release complete (knownNames_release _ _ _ _ _)

theorem unpack_order_modded :
    let listed : Bundle := .modded ["data.zip", "mods.zip"] (by decide)
    let listed' : Bundle := .modded ["mods.zip", "data.zip"] (by decide)
    (unpack "/sdcard" .sdcard (.quiet, listed)).tree = (unpack "/sdcard" .sdcard (.quiet, listed')).tree ∧
      (unpack "/sdcard" .sdcard (.quiet, listed)).mPrefs =
        (unpack "/sdcard" .sdcard (.quiet, listed')).mPrefs := by
  intro listed listed'
  have quiet : Schedule.quiet.NeverFails := fun _ => rfl
  have reordered : Reordered listed listed' :=
    ⟨by decide +kernel, fun _ _ => rfl, fun _ _ => rfl⟩
  have apart : ApartArchives "/sdcard" listed := by
    unfold ApartArchives
    decide +kernel
  apply unpack_order reordered apart quiet quiet
  · unfold Completes
    decide +kernel
  · unfold Completes
    decide +kernel

end Concrete

end OpenApocLauncher
