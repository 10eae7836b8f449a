import OpenApocLauncher.UnpackProgram

namespace OpenApocLauncher

open AssetUnzipper Effects

/-- Preferences and hashes are kept, and so is every path but the touched ones. -/
structure Changes (touched : FilePath → Prop) (st st' : UnzipState) : Prop where
  mPrefs : st'.mPrefs = st.mPrefs
  assetHashes : st'.assetHashes = st.assetHashes
  outside : ∀ path, ¬touched path → st'.tree.node path = st.tree.node path

theorem Changes.refl (touched : FilePath → Prop) (st : UnzipState) : Changes touched st st :=
  ⟨rfl, rfl, fun _ _ => rfl⟩

theorem Changes.trans {touched : FilePath → Prop} {a b c : UnzipState}
    (first : Changes touched a b) (second : Changes touched b c) : Changes touched a c :=
  ⟨second.mPrefs.trans first.mPrefs, second.assetHashes.trans first.assetHashes,
    fun path h => (second.outside path h).trans (first.outside path h)⟩

instance (touched : FilePath → Prop) : IsTrans UnzipState (Changes touched) :=
  ⟨fun _ _ _ => Changes.trans⟩

/-- Preferences, hashes and all that exists are kept; only directories on the way to the
path are added. -/
structure MakesDirectories (target : FilePath) (st st' : UnzipState) : Prop where
  mPrefs : st'.mPrefs = st.mPrefs
  assetHashes : st'.assetHashes = st.assetHashes
  added : ∀ path, st'.tree.node path = st.tree.node path ∨
    (st.tree.node path = none ∧ st'.tree.node path = some .directory ∧ path <:+ target)

theorem MakesDirectories.refl (target : FilePath) (st : UnzipState) :
    MakesDirectories target st st :=
  ⟨rfl, rfl, fun _ => Or.inl rfl⟩

theorem MakesDirectories.trans {target : FilePath} {a b c : UnzipState}
    (first : MakesDirectories target a b) (second : MakesDirectories target b c) :
    MakesDirectories target a c := by
  refine ⟨second.mPrefs.trans first.mPrefs, second.assetHashes.trans first.assetHashes, ?_⟩
  intro path
  rcases first.added path with kept | ⟨absent, made, below⟩
  · rcases second.added path with kept' | ⟨absent, made, below⟩
    · exact Or.inl (kept'.trans kept)
    · exact Or.inr ⟨kept ▸ absent, made, below⟩
  · rcases second.added path with kept' | ⟨absent', _, _⟩
    · exact Or.inr ⟨absent, kept'.trans made, below⟩
    · simp [made] at absent'

instance (target : FilePath) : IsTrans UnzipState (MakesDirectories target) :=
  ⟨fun _ _ _ => MakesDirectories.trans⟩

theorem MakesDirectories.mono {target above : FilePath} (h : above <:+ target) {st st' : UnzipState}
    (made : MakesDirectories above st st') : MakesDirectories target st st' := by
  refine ⟨made.mPrefs, made.assetHashes, ?_⟩
  intro path
  rcases made.added path with kept | ⟨absent, there, below⟩
  · exact Or.inl kept
  · exact Or.inr ⟨absent, there, below.trans h⟩

variable (io : Schedule)

def UnzipState.advance (st : UnzipState) : UnzipState := { st with clock := st.clock + 1 }

@[simp] theorem UnzipState.advance_tree (st : UnzipState) : st.advance.tree = st.tree := rfl

theorem tick_run (st : UnzipState) :
    (Io.tick io).run st = .ok (io.fault st.clock) st.advance := rfl

theorem attempt_run_of_none {st : UnzipState} (h : io.fault st.clock = none) :
    (Io.attempt io).run st = .ok () st.advance := by
  simp only [Io.attempt, EStateM.run_bind, tick_run, h]
  rfl

theorem attempt_run_of_some {st : UnzipState} {effect : Nat} (h : io.fault st.clock = some effect) :
    (Io.attempt io).run st = .error ⟨⟩ st.advance := by
  simp only [Io.attempt, EStateM.run_bind, tick_run, h]
  rfl

theorem final_attempt (st : UnzipState) : final (Io.attempt io) st = st.advance := by
  cases h : io.fault st.clock with
  | none => exact final_of_ok (attempt_run_of_none io h)
  | some effect => exact final_of_error (attempt_run_of_some io h)

theorem attempt_ok {st st' : UnzipState} {u : Unit} (h : (Io.attempt io).run st = .ok u st') :
    io.fault st.clock = none ∧ st' = st.advance := by
  cases hf : io.fault st.clock with
  | none =>
    rw [attempt_run_of_none io hf] at h
    cases h
    exact ⟨rfl, rfl⟩
  | some effect => simp [attempt_run_of_some io hf] at h

theorem attempt_changes (touched : FilePath → Prop) : Within (Changes touched) (Io.attempt io) := by
  intro st
  rw [final_attempt]
  exact ⟨rfl, rfl, fun _ _ => rfl⟩

theorem append_changes (outFile : FilePath) (bytes : List UInt8) (st : UnzipState) :
    Changes (· = outFile) st (Io.append outFile bytes st) := by
  unfold Io.append
  split
  next old file =>
    split
    next tree stored =>
      exact ⟨rfl, rfl, fun path h => (FileTree.store_node stored).2.2 path h⟩
    next => exact Changes.refl _ _
  next => exact Changes.refl _ _

theorem append_file {outFile : FilePath} {old : List UInt8} (bytes : List UInt8) {st : UnzipState}
    (h : st.tree.node outFile = some (.file old)) :
    (Io.append outFile bytes st).tree.node outFile = some (.file (old ++ bytes)) := by
  obtain ⟨tree, stored⟩ := st.tree.store_of_file (old ++ bytes) h
  simp only [Io.append, h, stored]
  exact (FileTree.store_node stored).2.1

theorem write_run_of_none (outFile : FilePath) (bytes : List UInt8) {st : UnzipState}
    (h : io.fault st.clock = none) :
    (Io.write io outFile bytes).run st = .ok () (Io.append outFile bytes st.advance) := by
  simp only [Io.write, EStateM.run_bind, tick_run, h]
  rfl

theorem write_run_of_some (outFile : FilePath) (bytes : List UInt8) {st : UnzipState} {landed : Nat}
    (h : io.fault st.clock = some landed) :
    (Io.write io outFile bytes).run st =
      .error ⟨⟩ (Io.append outFile (bytes.take landed) st.advance) := by
  simp only [Io.write, EStateM.run_bind, tick_run, h]
  rfl

theorem write_changes (outFile : FilePath) (bytes : List UInt8) :
    Within (Changes (· = outFile)) (Io.write io outFile bytes) := by
  intro st
  have start : Changes (· = outFile) st st.advance := ⟨rfl, rfl, fun _ _ => rfl⟩
  cases h : io.fault st.clock with
  | none =>
    rw [final_of_ok (write_run_of_none io outFile bytes h)]
    exact start.trans (append_changes outFile bytes st.advance)
  | some landed =>
    rw [final_of_error (write_run_of_some io outFile bytes h)]
    exact start.trans (append_changes outFile (bytes.take landed) st.advance)

theorem create_changes (outFile : FilePath) :
    Within (Changes (· = outFile)) (Io.create io outFile) := by
  apply Within.bind (attempt_changes io _)
  intro _ st
  simp only [final, EStateM.run_bind, EStateM.run_get]
  cases stored : st.tree.store [] outFile with
  | none => exact Changes.refl _ _
  | some tree => exact ⟨rfl, rfl, fun path h => (FileTree.store_node stored).2.2 path h⟩

theorem copyEntry_changes (outFile : FilePath) (reads : List (List UInt8)) :
    Within (Changes (· = outFile)) (copyEntry io outFile reads) := by
  induction reads with
  | nil => exact attempt_changes io _
  | cons buffer reads ih =>
    apply Within.bind (attempt_changes io _)
    intro _
    apply Within.bind (write_changes io outFile buffer)
    intro _
    exact ih

theorem mkdir_makes (path : FilePath) : Within (MakesDirectories path) (Io.mkdir io path) := by
  intro st
  simp only [final, Io.mkdir, EStateM.run_bind, tick_run]
  have start : MakesDirectories path st st.advance := ⟨rfl, rfl, fun _ => Or.inl rfl⟩
  cases io.fault st.clock with
  | some effect => exact start
  | none =>
    simp only [EStateM.run_bind, EStateM.run_get]
    cases made : st.advance.tree.mkdir path with
    | none => exact start
    | some tree =>
      obtain ⟨absent, there, others⟩ := FileTree.mkdir_node made
      refine start.trans ⟨rfl, rfl, ?_⟩
      intro other
      by_cases same : other = path
      · subst same
        exact Or.inr ⟨absent, there, List.suffix_refl _⟩
      · exact Or.inl (others other same)

theorem fileExists_makes (target path : FilePath) :
    Within (MakesDirectories target) (Io.fileExists path) :=
  fun st => MakesDirectories.refl target st

theorem mkdirs_makes (path : FilePath) : Within (MakesDirectories path) (Io.mkdirs io path) := by
  induction path with
  | nil => exact fun st => MakesDirectories.refl _ st
  | cons name dir ih =>
    have above : Within (MakesDirectories (name :: dir)) (Io.mkdirs io dir) :=
      fun st => (ih st).mono (List.suffix_cons name dir)
    have last := mkdir_makes io (name :: dir)
    have answer : ∀ b : Bool, Within (MakesDirectories (name :: dir)) (pure b : Io Bool) :=
      fun b => Within.pure (MakesDirectories.refl _) b
    apply Within.bind (fileExists_makes _ _)
    intro there
    apply Within.ite (answer false)
    apply Within.bind last
    intro made
    apply Within.ite (answer true)
    apply Within.bind above
    intro parents
    apply Within.ite last
    apply Within.bind (fileExists_makes _ _)
    intro parentThere
    exact Within.ite last (answer false)

def ZipEntry.target (path : String) (ze : ZipEntry) : FilePath :=
  FilePath.resolve (path ++ "/" ++ ze.name)

theorem unzipEntry_directory_makes (path : String) {ze : ZipEntry} (h : ze.isDirectory = true) :
    Within (MakesDirectories (ze.target path)) (unzipEntry io path ze) := by
  unfold unzipEntry
  simp only [h, if_true]
  apply Within.bind (mkdirs_makes io _)
  intro _
  exact Within.pure (MakesDirectories.refl _) ()

theorem unzipEntry_file_changes (path : String) {ze : ZipEntry} (h : ze.isDirectory = false) :
    Within (Changes (· = ze.target path)) (unzipEntry io path ze) := by
  unfold unzipEntry
  simp only [h, Bool.false_eq_true, if_false]
  apply Within.bind (create_changes io _)
  intro _
  apply Within.bind (Within.get (Changes.refl _))
  intro st
  apply Within.bind (copyEntry_changes io _ _)
  intro _
  exact attempt_changes io _

theorem create_ok {outFile : FilePath} {st st' : UnzipState} {u : Unit}
    (h : (Io.create io outFile).run st = .ok u st') :
    ∃ tree, io.fault st.clock = none ∧ st.tree.store [] outFile = some tree ∧
      st' = { st.advance with tree } := by
  obtain ⟨_, st₁, ha, h⟩ := bind_ok h
  obtain ⟨quiet, rfl⟩ := attempt_ok io ha
  simp only [EStateM.run_bind, EStateM.run_get] at h
  cases stored : st.advance.tree.store [] outFile with
  | none => rw [stored] at h; simp at h
  | some tree =>
    rw [stored] at h
    cases h
    exact ⟨tree, quiet, stored, rfl⟩

theorem write_ok {outFile : FilePath} {bytes : List UInt8} {st st' : UnzipState} {u : Unit}
    (h : (Io.write io outFile bytes).run st = .ok u st') :
    io.fault st.clock = none ∧ st' = Io.append outFile bytes st.advance := by
  cases hf : io.fault st.clock with
  | none =>
    rw [write_run_of_none io outFile bytes hf] at h
    cases h
    exact ⟨rfl, rfl⟩
  | some landed => simp [write_run_of_some io outFile bytes hf] at h

theorem copyEntry_ok {outFile : FilePath} {reads : List (List UInt8)} {st st' : UnzipState}
    {u : Unit} {old : List UInt8} (file : st.tree.node outFile = some (.file old))
    (h : (copyEntry io outFile reads).run st = .ok u st') :
    st'.tree.node outFile = some (.file (old ++ reads.flatten)) := by
  induction reads generalizing st old with
  | nil =>
    obtain ⟨_, rfl⟩ := attempt_ok io h
    simpa using file
  | cons buffer reads ih =>
    obtain ⟨_, st₁, ha, h⟩ := bind_ok h
    obtain ⟨_, rfl⟩ := attempt_ok io ha
    obtain ⟨_, st₂, hw, h⟩ := bind_ok h
    obtain ⟨_, rfl⟩ := write_ok io hw
    have grown : (Io.append outFile buffer st.advance.advance).tree.node outFile =
        some (.file (old ++ buffer)) := append_file buffer file
    have rest := ih grown h
    rwa [List.append_assoc] at rest

/-- A file entry that is unpacked without an exception holds its content. -/
theorem unzipEntry_ok {path : String} {ze : ZipEntry} (file : ze.isDirectory = false)
    {st st' : UnzipState} {u : Unit} (h : (unzipEntry io path ze).run st = .ok u st') :
    st'.tree.node (ze.target path) = some (.file ze.content) := by
  simp only [unzipEntry, file, Bool.false_eq_true, if_false] at h
  obtain ⟨_, st₁, hc, h⟩ := bind_ok h
  obtain ⟨tree, _, stored, rfl⟩ := create_ok io hc
  simp only [EStateM.run_bind, EStateM.run_get] at h
  obtain ⟨_, st₂, hcopy, h⟩ := bind_ok h
  obtain ⟨_, rfl⟩ := attempt_ok io h
  have made : ({ st.advance with tree } : UnzipState).tree.node (ze.target path) = some (.file []) :=
    (FileTree.store_node stored).2.1
  have copied := copyEntry_ok io made hcopy
  rwa [io.flatten_chunks, List.nil_append] at copied

/-- A step that ends has unpacked its entry, or has none and leaves tree and preferences alone. -/
theorem Work.perform_ok {assets : Bundle} {path : String} {work : Work} {st st' : UnzipState}
    {u : Unit} (h : (work.perform io assets path).run st = .ok u st') :
    ((∀ ze, work ≠ .entry ze) ∧ st'.tree = st.tree ∧ st'.mPrefs = st.mPrefs) ∨
      ∃ ze, work = .entry ze ∧ (unzipEntry io path ze).run st.advance = .ok u st' := by
  cases work with
  | list =>
    obtain ⟨_, rfl⟩ := attempt_ok io h
    exact Or.inl ⟨by simp, rfl, rfl⟩
  | openAsset assetName =>
    obtain ⟨_, rfl⟩ := attempt_ok io h
    exact Or.inl ⟨by simp, rfl, rfl⟩
  | entry ze =>
    obtain ⟨_, st₁, first, rest⟩ := bind_ok h
    obtain ⟨_, rfl⟩ := attempt_ok io first
    exact Or.inr ⟨ze, rfl, rest⟩
  | closeAsset assetName =>
    obtain ⟨_, st₁, first, rest⟩ := bind_ok h
    obtain ⟨_, rfl⟩ := attempt_ok io first
    cases rest
    exact Or.inl ⟨by simp, rfl, rfl⟩

end OpenApocLauncher
