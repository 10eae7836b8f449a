import OpenApocLauncher.Launcher
import OpenApocLauncher.UnpackEffects

namespace OpenApocLauncher

open AssetUnzipper Effects

def Schedule.NoFault (io : Schedule) (clock count : Nat) : Prop :=
  ∀ i < count, io.fault (clock + i) = none

theorem Schedule.noFault_succ (io : Schedule) (clock count : Nat) :
    io.NoFault clock (count + 1) ↔ io.fault clock = none ∧ io.NoFault (clock + 1) count := by
  unfold Schedule.NoFault
  rw [Nat.forall_lt_succ_left]
  simp only [Nat.add_zero, Nat.add_assoc, Nat.add_comm 1]

theorem Schedule.noFault_append (io : Schedule) (clock first second : Nat) :
    io.NoFault clock (first + second) ↔
      io.NoFault clock first ∧ io.NoFault (clock + first) second := by
  induction first generalizing clock with
  | zero => simp [Schedule.NoFault]
  | succ first ih =>
    rw [show first + 1 + second = (first + second) + 1 by omega, io.noFault_succ, io.noFault_succ,
      ih, show clock + (first + 1) = clock + 1 + first by omega, and_assoc]

section Operations

variable (io : Schedule)

@[simp] theorem UnzipState.advance_clock (st : UnzipState) : st.advance.clock = st.clock + 1 := rfl

theorem attempt_ends_iff (st : UnzipState) : Ends (Io.attempt io) st ↔ io.fault st.clock = none := by
  cases h : io.fault st.clock with
  | none => simpa using ⟨(), st.advance, attempt_run_of_none io h⟩
  | some effect => simpa using not_ends_of_error (attempt_run_of_some io h)

theorem attempt_bind_ends_iff {α : Type} (next : Unit → Io α) (st : UnzipState) :
    Ends (Io.attempt io >>= next) st ↔ io.fault st.clock = none ∧ Ends (next ()) st.advance := by
  cases h : io.fault st.clock with
  | none => simpa using ends_bind_of_ok (attempt_run_of_none io h)
  | some effect =>
    simp only [reduceCtorEq, false_and, iff_false]
    intro ends
    exact not_ends_of_error (attempt_run_of_some io h) ends.of_bind

@[simp] theorem append_clock (outFile : FilePath) (bytes : List UInt8) (st : UnzipState) :
    (Io.append outFile bytes st).clock = st.clock := by
  unfold Io.append
  split
  next => split <;> rfl
  next => rfl

theorem write_bind_ends_iff {α : Type} (outFile : FilePath) (bytes : List UInt8)
    (next : Unit → Io α) (st : UnzipState) :
    Ends (Io.write io outFile bytes >>= next) st ↔
      io.fault st.clock = none ∧ Ends (next ()) (Io.append outFile bytes st.advance) := by
  constructor
  · intro ends
    obtain ⟨_, st', written, rest⟩ := ends_bind_iff.mp ends
    obtain ⟨quiet, rfl⟩ := write_ok io written
    exact ⟨quiet, rest⟩
  · rintro ⟨quiet, rest⟩
    exact (ends_bind_of_ok (write_run_of_none io outFile bytes quiet)).mpr rest

/-- The copy loop reads and writes once for each buffer and then reads the end of the entry. -/
theorem copyEntry_ends_iff (outFile : FilePath) (reads : List (List UInt8)) (st : UnzipState) :
    Ends (copyEntry io outFile reads) st ↔ io.NoFault st.clock (2 * reads.length + 1) := by
  induction reads generalizing st with
  | nil => simp [copyEntry, attempt_ends_iff, Schedule.NoFault]
  | cons buffer reads ih =>
    rw [copyEntry, attempt_bind_ends_iff, write_bind_ends_iff, ih]
    simp only [append_clock, UnzipState.advance_clock]
    have length : 2 * (buffer :: reads).length + 1 = (2 * reads.length + 1) + 1 + 1 := by
      simp only [List.length_cons]
      omega
    rw [length, io.noFault_succ st.clock, io.noFault_succ (st.clock + 1)]

theorem copyEntry_clock {outFile : FilePath} {reads : List (List UInt8)} {st st' : UnzipState}
    {u : Unit} (h : (copyEntry io outFile reads).run st = .ok u st') :
    st'.clock = st.clock + (2 * reads.length + 1) := by
  induction reads generalizing st with
  | nil =>
    obtain ⟨_, rfl⟩ := attempt_ok io h
    simp
  | cons buffer reads ih =>
    obtain ⟨_, st₁, ha, h⟩ := bind_ok h
    obtain ⟨_, rfl⟩ := attempt_ok io ha
    obtain ⟨_, st₂, hw, h⟩ := bind_ok h
    obtain ⟨_, rfl⟩ := write_ok io hw
    have rest := ih h
    simp only [append_clock, UnzipState.advance_clock] at rest
    simp only [List.length_cons]
    omega

theorem fileExists_ends (path : FilePath) (st : UnzipState) : Ends (Io.fileExists path) st :=
  ⟨_, st, rfl⟩

theorem mkdir_ends (path : FilePath) (st : UnzipState) : Ends (Io.mkdir io path) st := by
  have ticked : Ends (Io.tick io) st := ⟨_, _, tick_run io st⟩
  apply ticked.bind
  intro fault st'
  cases fault with
  | some effect => exact Ends.pure _ _
  | none =>
    cases made : st'.tree.mkdir path with
    | none => exact ⟨false, st', by simp [made]⟩
    | some tree =>
      refine ⟨true, { st' with tree }, ?_⟩
      simp only [EStateM.run_bind, EStateM.run_get, made]
      rfl

theorem mkdirs_ends (path : FilePath) (st : UnzipState) : Ends (Io.mkdirs io path) st := by
  induction path generalizing st with
  | nil => exact Ends.pure _ _
  | cons name dir ih =>
    apply (fileExists_ends (name :: dir) st).bind
    intro there st
    cases there with
    | true => exact Ends.pure _ _
    | false =>
      apply (mkdir_ends io (name :: dir) st).bind
      intro made st
      cases made with
      | true => exact Ends.pure _ _
      | false =>
        apply (ih st).bind
        intro parents st
        cases parents with
        | true => exact mkdir_ends io (name :: dir) st
        | false =>
          apply (fileExists_ends dir st).bind
          intro parentThere st
          cases parentThere with
          | true => exact mkdir_ends io (name :: dir) st
          | false => exact Ends.pure _ _

theorem fileExists_run (path : FilePath) (st : UnzipState) :
    (Io.fileExists path).run st = .ok (st.tree.node path).isSome st := rfl

theorem mkdir_run_of_none {path : FilePath} {st : UnzipState}
    (fails : st.tree.mkdir path = none) : (Io.mkdir io path).run st = .ok false st.advance := by
  simp only [Io.mkdir, EStateM.run_bind, tick_run]
  cases io.fault st.clock with
  | some effect => rfl
  | none =>
    simp only [EStateM.run_bind, EStateM.run_get, UnzipState.advance_tree, fails]
    rfl

/-- With its parent there and its place free, `mkdir` makes the directory unless it fails. -/
theorem mkdir_run_of_free {name : String} {dir : FilePath} {st : UnzipState}
    (inside : st.tree.node dir = some .directory) (free : st.tree.node (name :: dir) = none) :
    ∃ st', (Io.mkdir io (name :: dir)).run st = .ok (io.fault st.clock).isNone st' ∧
      st'.clock = st.clock + 1 ∧
      (io.fault st.clock = none → st'.tree.node (name :: dir) = some .directory) ∧
      (io.fault st.clock ≠ none → st'.tree = st.tree) := by
  obtain ⟨made, h⟩ := st.tree.mkdir_of_free inside free
  simp only [Io.mkdir, EStateM.run_bind, tick_run]
  cases io.fault st.clock with
  | some effect => exact ⟨st.advance, rfl, rfl, by simp, fun _ => rfl⟩
  | none =>
    refine ⟨{ st.advance with tree := made }, ?_, rfl, fun _ => (FileTree.mkdir_node h).2.1, by simp⟩
    simp only [EStateM.run_bind, EStateM.run_get, UnzipState.advance_tree, h]
    rfl

theorem mkdirs_run_of_exists {path : FilePath} {st : UnzipState} (there : st.tree.node path ≠ none) :
    (Io.mkdirs io path).run st = .ok false st := by
  cases path with
  | nil => rfl
  | cons name dir =>
    have found : (st.tree.node (name :: dir)).isSome = true := Option.isSome_iff_ne_none.mpr there
    simp only [Io.mkdirs, EStateM.run_bind, fileExists_run, found]
    rfl

/-- The call of `mkdir` for the highest of the missing directories that decides: the first one
or, when that fails, the second. The calls before it fail for want of a parent. -/
def Schedule.decidingMkdir (io : Schedule) (clock count : Nat) : Nat :=
  let first := clock + (count - 1)
  if io.fault first = none then first else first + 1

/-- `mkdirs` can leave the directory: the nearest of what is there is a directory, and from the
deciding call on `mkdir` succeeds for all that are missing. -/
def DirectoryMakeable (place : FilePath) (st : UnzipState) : Prop :=
  let count := st.tree.missing place
  st.tree.node (place.drop count) = some .directory ∧
    io.NoFault (io.decidingMkdir st.clock count) count

theorem directoryMakeable_cons {name : String} {dir : FilePath} {st : UnzipState}
    (absent : st.tree.node (name :: dir) = none) :
    DirectoryMakeable io (name :: dir) st ↔
      st.tree.node (dir.drop (st.tree.missing dir)) = some .directory ∧
        io.NoFault (io.decidingMkdir st.clock (st.tree.missing dir + 1)) (st.tree.missing dir + 1) := by
  rw [DirectoryMakeable, st.tree.missing_of_absent absent, List.drop_succ_cons]

section Missing

variable {name : String} {dir : FilePath} {st st₁ st₂ : UnzipState}

theorem mkdirs_run_of_made (absent : st.tree.node (name :: dir) = none)
    (first : (Io.mkdir io (name :: dir)).run st = .ok true st₁) :
    (Io.mkdirs io (name :: dir)).run st = .ok true st₁ := by
  have missed : (st.tree.node (name :: dir)).isSome = false := by simp [absent]
  simp only [Io.mkdirs, EStateM.run_bind, fileExists_run, missed]
  simp only [Bool.false_eq_true, if_false, EStateM.run_bind, first]
  rfl

theorem mkdirs_run_of_retry {answer : Bool} (absent : st.tree.node (name :: dir) = none)
    (first : (Io.mkdir io (name :: dir)).run st = .ok false st₁)
    (parents : (Io.mkdirs io dir).run st₁ = .ok answer st₂) :
    (Io.mkdirs io (name :: dir)).run st =
      if answer || (st₂.tree.node dir).isSome then (Io.mkdir io (name :: dir)).run st₂
      else .ok false st₂ := by
  have missed : (st.tree.node (name :: dir)).isSome = false := by simp [absent]
  simp only [Io.mkdirs, EStateM.run_bind, fileExists_run, missed]
  simp only [Bool.false_eq_true, if_false, EStateM.run_bind, first, parents]
  cases answer with
  | true => rfl
  | false =>
    simp only [Bool.false_eq_true, if_false, EStateM.run_bind, fileExists_run, Bool.false_or]
    cases (st₂.tree.node dir).isSome <;> rfl

end Missing

/-- What a call of `mkdirs` for a missing directory comes to, when this decides about it. -/
structure MkdirsEnds (place : FilePath) (st : UnzipState) (possible : Prop) (made : Bool)
    (st' : UnzipState) : Prop where
  run : (Io.mkdirs io place).run st = .ok made st'
  possible : made = true ↔ possible
  there : made = true → st'.tree.node place = some .directory
  clock : made = true →
    st'.clock = io.decidingMkdir st.clock (st.tree.missing place) + st.tree.missing place
  absent : made = false → st'.tree.node place = none

theorem mkdirs_below_directory {name : String} {dir : FilePath} {st : UnzipState}
    (absent : st.tree.node (name :: dir) = none) (inside : st.tree.node dir = some .directory) :
    ∃ made st', MkdirsEnds io (name :: dir) st (io.NoFault (io.decidingMkdir st.clock 1) 1) made st' := by
  have count : st.tree.missing (name :: dir) = 1 := by
    rw [st.tree.missing_of_absent absent, st.tree.missing_of_exists (by simp [inside])]
  obtain ⟨st₁, first, clock, there, same⟩ := mkdir_run_of_free io inside absent
  cases fault : io.fault st.clock with
  | none =>
    rw [fault] at first
    have decides : io.decidingMkdir st.clock 1 = st.clock := by simp [Schedule.decidingMkdir, fault]
    refine ⟨true, st₁, mkdirs_run_of_made io absent first, ?_, fun _ => there fault, fun _ => ?_, by simp⟩
    · simpa [decides, Schedule.NoFault] using fault
    · rw [count, decides, clock]
  | some effect =>
    rw [fault] at first
    have kept := same (by simp [fault])
    have decides : io.decidingMkdir st.clock 1 = st.clock + 1 := by
      simp [Schedule.decidingMkdir, fault]
    -- the directory above is there: the same call is made once more
    have parents : (Io.mkdirs io dir).run st₁ = .ok false st₁ :=
      mkdirs_run_of_exists io (by simp [kept, inside])
    have retried := mkdirs_run_of_retry io absent first parents
    rw [kept, inside] at retried
    obtain ⟨st₂, second, clock', there', same'⟩ :=
      mkdir_run_of_free io (kept ▸ inside : st₁.tree.node dir = _) (kept ▸ absent : st₁.tree.node (name :: dir) = _)
    refine ⟨_, st₂, retried.trans second, ?_, ?_, ?_, ?_⟩
    · simp [decides, Schedule.NoFault, clock]
    · intro made
      exact there' (Option.isNone_iff_eq_none.mp made)
    · intro _
      rw [count, decides, clock', clock]
    · intro failed
      have fails : io.fault st₁.clock ≠ none := fun none => by simp [none] at failed
      rw [same' fails, kept]
      exact absent

theorem Schedule.decidingMkdir_succ (io : Schedule) (clock : Nat) {count : Nat} (some : 0 < count) :
    io.decidingMkdir (clock + 1) count = io.decidingMkdir clock (count + 1) := by
  have first : clock + 1 + (count - 1) = clock + (count + 1 - 1) := by omega
  rw [decidingMkdir, decidingMkdir, first]

theorem mkdirs_below_missing {name : String} {dir : FilePath} {st : UnzipState}
    (absent : st.tree.node dir = none) {possible : Prop} {parent : Bool} {st₁ : UnzipState}
    (above : MkdirsEnds io dir st.advance possible parent st₁) :
    ∃ made st', MkdirsEnds io (name :: dir) st
      (possible ∧ io.fault (io.decidingMkdir st.clock (st.tree.missing dir + 1) +
        st.tree.missing dir) = none) made st' := by
  have outside : st.tree.node dir ≠ some .directory := by simp [absent]
  have missed : st.tree.node (name :: dir) = none := by
    by_contra there
    exact outside (st.tree.parent name dir there)
  have impossible : st.tree.mkdir (name :: dir) = none := st.tree.mkdir_of_no_parent outside
  have first := mkdir_run_of_none io impossible
  have retried := mkdirs_run_of_retry io missed first above.run
  have decides := io.decidingMkdir_succ st.clock (st.tree.missing_pos absent)
  cases parent with
  | false =>
    have none := above.absent rfl
    rw [none] at retried
    refine ⟨false, st₁, retried, ?_, by simp, by simp, fun _ => ?_⟩
    · have impossible := mt above.possible.mpr (by simp)
      simp [impossible]
    · by_contra there
      simp [st₁.tree.parent name dir there] at none
  | true =>
    have possible := above.possible.mp rfl
    have clock := above.clock rfl
    rw [UnzipState.advance_clock, UnzipState.advance_tree, decides] at clock
    have free : st₁.tree.node (name :: dir) = none := by
      have makes := mkdirs_makes io dir st.advance
      rw [final_of_ok above.run] at makes
      rcases makes.added (name :: dir) with kept | ⟨_, _, below⟩
      · exact kept.trans missed
      · have length := below.length_le
        rw [List.length_cons] at length
        omega
    obtain ⟨st₂, last, clock', there, same⟩ := mkdir_run_of_free io (above.there rfl) free
    refine ⟨_, st₂, retried.trans last, ?_, fun made => ?_, fun _ => ?_, fun failed => ?_⟩
    · rw [Option.isNone_iff_eq_none, clock]
      exact (and_iff_right possible).symm
    · exact there (Option.isNone_iff_eq_none.mp made)
    · rw [clock', clock, st.tree.missing_of_absent missed]
      omega
    · rw [same fun none => by simp [none] at failed]
      exact free

theorem mkdirs_below_file {name : String} {dir : FilePath} {st : UnzipState} {content : List UInt8}
    (file : st.tree.node dir = some (.file content)) :
    ∃ st', MkdirsEnds io (name :: dir) st False false st' := by
  have outside : st.tree.node dir ≠ some .directory := by simp [file]
  have missed : st.tree.node (name :: dir) = none := by
    by_contra there
    exact outside (st.tree.parent name dir there)
  have fails (st' : UnzipState) (same : st'.tree = st.tree) :
      (Io.mkdir io (name :: dir)).run st' = .ok false st'.advance :=
    mkdir_run_of_none io (st'.tree.mkdir_of_no_parent (same ▸ outside))
  have parents : (Io.mkdirs io dir).run st.advance = .ok false st.advance :=
    mkdirs_run_of_exists io (by simp [file])
  have retried := mkdirs_run_of_retry io missed (fails st rfl) parents
  rw [UnzipState.advance_tree, file] at retried
  exact ⟨st.advance.advance, retried.trans (fails st.advance rfl), by simp, by simp, by simp,
    fun _ => missed⟩

/-- `mkdirs` for a missing directory makes it exactly when it can be made. -/
theorem mkdirs_run_of_absent {place : FilePath} {st : UnzipState}
    (absent : st.tree.node place = none) :
    ∃ made st', MkdirsEnds io place st (DirectoryMakeable io place st) made st' := by
  induction place generalizing st with
  | nil => simp [st.tree.root] at absent
  | cons name dir ih =>
    rw [directoryMakeable_cons io absent]
    cases parent : st.tree.node dir with
    | some node =>
      rw [st.tree.missing_of_exists (by simp [parent] : st.tree.node dir ≠ none), List.drop_zero, parent]
      cases node with
      | directory => simpa using mkdirs_below_directory io absent parent
      | file content =>
        obtain ⟨st', ends⟩ := @mkdirs_below_file io name dir st content parent
        exact ⟨false, st', by simpa using ends⟩
    | none =>
      obtain ⟨made, st₁, above⟩ := @ih st.advance parent
      obtain ⟨made', st', ends⟩ := mkdirs_below_missing io parent above
      refine ⟨made', st', ?_⟩
      rw [DirectoryMakeable, UnzipState.advance_clock, UnzipState.advance_tree,
        io.decidingMkdir_succ st.clock (st.tree.missing_pos parent)] at ends
      rw [io.noFault_append, ← and_assoc]
      simpa [Schedule.NoFault] using ends

/-- `mkdirs` leaves a directory exactly when it can: what is there stays as it is. -/
theorem mkdirs_directory_iff (place : FilePath) (st : UnzipState) :
    (final (Io.mkdirs io place) st).tree.node place = some .directory ↔
      DirectoryMakeable io place st := by
  by_cases there : st.tree.node place = none
  · obtain ⟨made, st', ends⟩ := mkdirs_run_of_absent io there
    rw [final_of_ok ends.run, ← ends.possible]
    cases made with
    | true => simp [ends.there rfl]
    | false => simp [ends.absent rfl]
  · rw [final_of_ok (mkdirs_run_of_exists io there), DirectoryMakeable, st.tree.missing_of_exists there]
    simp [Schedule.NoFault]

theorem create_bind_ends_iff {α : Type} (outFile : FilePath) (next : Unit → Io α)
    (st : UnzipState) :
    Ends (Io.create io outFile >>= next) st ↔
      io.fault st.clock = none ∧
        ∃ tree, st.tree.store [] outFile = some tree ∧ Ends (next ()) { st.advance with tree } := by
  constructor
  · intro ends
    obtain ⟨_, st', created, rest⟩ := ends_bind_iff.mp ends
    obtain ⟨tree, quiet, stored, rfl⟩ := create_ok io created
    exact ⟨quiet, tree, stored, rest⟩
  · rintro ⟨quiet, tree, stored, rest⟩
    have created : (Io.create io outFile).run st = .ok () { st.advance with tree } := by
      simp only [Io.create, EStateM.run_bind, attempt_run_of_none io quiet, EStateM.run_get,
        UnzipState.advance_tree, stored]
      rfl
    exact (ends_bind_of_ok created).mpr rest

theorem copyEntry_close_ends_iff (outFile : FilePath) (reads : List (List UInt8)) (st : UnzipState) :
    Ends (do copyEntry io outFile reads; Io.attempt io) st ↔
      io.NoFault st.clock (2 * reads.length + 1 + 1) := by
  rw [io.noFault_append, ends_bind_iff]
  have last (clock : Nat) : io.NoFault clock 1 ↔ io.fault clock = none := by
    simp [Schedule.NoFault]
  constructor
  · rintro ⟨_, st', copied, closed⟩
    have clock := copyEntry_clock io copied
    rw [attempt_ends_iff, clock] at closed
    exact ⟨(copyEntry_ends_iff io outFile reads st).mp ⟨_, st', copied⟩, (last _).mpr closed⟩
  · rintro ⟨copies, closes⟩
    obtain ⟨_, st', copied⟩ := (copyEntry_ends_iff io outFile reads st).mpr copies
    have clock := copyEntry_clock io copied
    refine ⟨_, st', copied, (attempt_ends_iff io st').mpr ?_⟩
    rw [clock]
    exact (last _).mp closes

/-- The file of an entry can be written: its directory is there, no directory is in its place,
and opening it, each read, each write and closing it succeed. -/
def FileWritable (outFile : FilePath) (content : List UInt8) (st : UnzipState) : Prop :=
  (st.tree.store [] outFile).isSome ∧
    io.NoFault st.clock (2 * (io.chunks (st.clock + 1) content).length + 3)

theorem unzipEntry_file_ends_iff {path : String} {ze : ZipEntry} (file : ze.isDirectory = false)
    (st : UnzipState) :
    Ends (unzipEntry io path ze) st ↔ FileWritable io (ze.target path) ze.content st := by
  simp only [unzipEntry, file, Bool.false_eq_true, if_false]
  rw [create_bind_ends_iff]
  have reading (tree : FileTree String (List UInt8)) :
      Ends (do
        let reads := io.chunks (← get).clock ze.content
        copyEntry io (ze.target path) reads
        Io.attempt io) { st.advance with tree } ↔
      io.NoFault (st.clock + 1) (2 * (io.chunks (st.clock + 1) ze.content).length + 1 + 1) :=
    (ends_bind_of_ok rfl).trans (copyEntry_close_ends_iff io _ _ _)
  have length (count : Nat) : 2 * count + 3 = (2 * count + 1 + 1) + 1 := by omega
  rw [FileWritable, length, io.noFault_succ, Option.isSome_iff_exists]
  constructor
  · rintro ⟨quiet, tree, stored, ends⟩
    exact ⟨⟨tree, stored⟩, quiet, (reading tree).mp ends⟩
  · rintro ⟨⟨tree, stored⟩, quiet, rest⟩
    exact ⟨quiet, tree, stored, (reading tree).mpr rest⟩

theorem unzipEntry_directory_ends {path : String} {ze : ZipEntry} (directory : ze.isDirectory = true)
    (st : UnzipState) : Ends (unzipEntry io path ze) st := by
  simp only [unzipEntry, directory, if_true]
  apply (mkdirs_ends io _ st).bind
  intro _ st'
  exact Ends.pure () st'

end Operations

def ZipEntry.Unpacked (path : String) (ze : ZipEntry) (tree : FileTree String (List UInt8)) : Prop :=
  tree.node (ze.target path) = some (if ze.isDirectory then .directory else .file ze.content)

section Program

variable (io : Schedule) (assets : Bundle) (path : String)

/-- The entry can be unpacked from here: its directory can be made, or its file be written. -/
def ZipEntry.Unpackable (ze : ZipEntry) (st : UnzipState) : Prop :=
  if ze.isDirectory then DirectoryMakeable io (ze.target path) st
  else FileWritable io (ze.target path) ze.content st

def Work.Possible (st : UnzipState) : Work → Prop
  | .list => io.fault st.clock = none
  | .openAsset _ => io.fault st.clock = none
  | .entry ze => io.fault st.clock = none ∧ ze.Unpackable io path st.advance
  | .closeAsset _ => io.fault st.clock = none

/-- Nothing stands in the way of the steps: each is possible where the ones before it lead. -/
def Unhindered : List Work → UnzipState → Prop
  | [], _ => True
  | work :: rest, st =>
    work.Possible io path st ∧ Unhindered rest (final (work.perform io assets path) st)

/-- Each entry among the steps was unpacked when its turn came; after an exception the turn
of the entries that are left never comes. -/
def AllUnpacked : List Work → UnzipState → Prop
  | [], _ => True
  | work :: rest, st =>
    match (work.perform io assets path).run st with
    | .ok _ st' => (∀ ze, work = .entry ze → ze.Unpacked path st'.tree) ∧ AllUnpacked rest st'
    | .error _ _ => ∀ ze, .entry ze ∉ work :: rest

theorem unzipEntry_unpacked_iff (ze : ZipEntry) (st : UnzipState) :
    (Ends (unzipEntry io path ze) st ∧ ze.Unpacked path (final (unzipEntry io path ze) st).tree) ↔
      ze.Unpackable io path st := by
  unfold ZipEntry.Unpackable ZipEntry.Unpacked
  cases kind : ze.isDirectory with
  | true =>
    obtain ⟨made, st', run⟩ := mkdirs_ends io (ze.target path) st
    have whole : (unzipEntry io path ze).run st = .ok () st' := by
      simp only [unzipEntry, kind, if_true, EStateM.run_bind]
      rw [show (Io.mkdirs io (FilePath.resolve (path ++ "/" ++ ze.name))).run st = .ok made st' from run]
      rfl
    simp only [unzipEntry_directory_ends io kind st, true_and, if_true, final_of_ok whole]
    rw [← mkdirs_directory_iff, final_of_ok run]
  | false =>
    simp only [Bool.false_eq_true, if_false, ← unzipEntry_file_ends_iff io kind st, and_iff_left_iff_imp]
    rintro ⟨u, st', run⟩
    rw [final_of_ok run]
    exact unzipEntry_ok io kind run

theorem Work.possible_iff (work : Work) (st : UnzipState) :
    (Ends (work.perform io assets path) st ∧ ∀ ze, work = .entry ze →
      ze.Unpacked path (final (work.perform io assets path) st).tree) ↔ work.Possible io path st := by
  cases work with
  | list => simp [Work.perform, Work.Possible, attempt_ends_iff]
  | openAsset assetName => simp [Work.perform, Work.Possible, attempt_ends_iff]
  | closeAsset assetName =>
    simp only [Work.perform, Work.Possible, attempt_bind_ends_iff, reduceCtorEq, false_implies,
      implies_true, and_true, and_iff_left_iff_imp]
    exact fun _ => ⟨(), _, rfl⟩
  | entry ze =>
    simp only [Work.perform, Work.Possible, attempt_bind_ends_iff, Work.entry.injEq, forall_eq',
      ← unzipEntry_unpacked_iff io path ze st.advance, and_assoc]
    refine and_congr_right fun quiet => ?_
    have same : final (do Io.attempt io; unzipEntry io path ze) st =
        final (unzipEntry io path ze) st.advance := by
      simp only [final, EStateM.run_bind, attempt_run_of_none io quiet]
    rw [same]

/-- All steps end with their entries unpacked exactly when nothing stands in their way. -/
theorem unhindered_iff (works : List Work) (st : UnzipState) :
    (Ends (performAll io assets path works) st ∧ AllUnpacked io assets path works st) ↔
      Unhindered io assets path works st := by
  induction works generalizing st with
  | nil => exact ⟨fun _ => trivial, fun _ => ⟨Ends.pure () st, trivial⟩⟩
  | cons work works ih =>
    rw [performAll, AllUnpacked, Unhindered, ← work.possible_iff io assets path st, ends_bind_iff]
    cases run : (work.perform io assets path).run st with
    | ok u st' =>
      rw [final_of_ok run, ← ih st']
      constructor
      · rintro ⟨⟨a, s', same, ends⟩, entry, rest⟩
        cases same
        exact ⟨⟨⟨u, st', run⟩, entry⟩, ends, rest⟩
      · rintro ⟨⟨_, entry⟩, ends, rest⟩
        exact ⟨⟨u, st', rfl, ends⟩, entry, rest⟩
    | error e st' =>
      constructor
      · rintro ⟨⟨a, s', same, _⟩, _⟩
        cases same
      · rintro ⟨⟨ends, _⟩, _⟩
        exact absurd ends (not_ends_of_error run)

end Program

section Task

variable [Device] (io : Schedule) (assets : Bundle) (owner : TaskOwner) (path : String)

/-- A `DataUnpackerTask`: `doInBackground`, and then `onPostExecute` whatever came of it. -/
def DataUnpackerTask.run (st : UnzipState) : UiState :=
  final (owner.onPostExecute path) ⟨(final (unzipAssets io assets path) st).mPrefs, []⟩

theorem DataUnpackerTask.run_eq (st : UnzipState) :
    DataUnpackerTask.run io assets owner path st =
      ⟨Config.setOption (final (unzipAssets io assets path) st).mPrefs .resLocalDataDir
          (owner.storedDir path),
        if owner = .preloader then [.startGame] else []⟩ := by
  cases owner <;> rfl

theorem DataUnpackerTask.run_getOption (st : UnzipState) :
    Config.getOption (DataUnpackerTask.run io assets owner path st).mPrefs .resLocalDataDir =
      .ok (owner.storedDir path) := by
  rw [DataUnpackerTask.run_eq]
  exact Config.getOption_setOption_self _ _ _

theorem DataUnpackerTask.run_startGame_iff (st : UnzipState) :
    .startGame ∈ (DataUnpackerTask.run io assets owner path st).actions ↔ owner = .preloader := by
  rw [DataUnpackerTask.run_eq]
  cases owner <;> simp

/-- The launcher's background steps and the delivery that follows run its tasks like this. -/
theorem DataUnpackerTask.run_of_launcher {s : Launcher} {rest : List UnpackTask}
    (queued : s.queue = ⟨owner, path, unpackProgram s.assets, []⟩ :: rest) (none : s.posted = []) :
    ∃ rounds,
      let done := DataUnpackerTask.run io s.assets owner path ⟨s.tree, s.clock, s.mPrefs, []⟩
      let after := Machine.run (Launcher.step io) s (List.replicate rounds .background ++ [.post])
      after.mPrefs = done.mPrefs ∧ after.games = s.games + done.actions.count .startGame := by
  obtain ⟨rounds, ⟨owner, dataPath, todo, hashes⟩, rfl, rfl, hrun⟩ :=
    Launcher.background_unzipAssets io s queued
  refine ⟨rounds, ?_⟩
  simp only [Machine.run_concat, hrun, none, List.nil_append, DataUnpackerTask.run_eq]
  cases owner <;> exact ⟨rfl, rfl⟩

/-- An exception leaves the stored directory as it was and starts no game; both happen only
when every entry was unpacked. -/
structure FailsInvisibly (st : UnzipState) : Prop where
  failed : ¬Ends (unzipLoops io assets path) { st with assetHashes := [] } →
    Config.getOption (DataUnpackerTask.run io assets owner path st).mPrefs .resLocalDataDir =
        Config.getOption st.mPrefs .resLocalDataDir ∧
      .startGame ∉ (DataUnpackerTask.run io assets owner path st).actions
  success : Config.getOption (DataUnpackerTask.run io assets owner path st).mPrefs .resLocalDataDir ≠
        Config.getOption st.mPrefs .resLocalDataDir ∨
      .startGame ∈ (DataUnpackerTask.run io assets owner path st).actions →
    AllUnpacked io assets path (unpackProgram assets) { st with assetHashes := [] }

/-- A task hides its failures exactly when it has none, or when it is the one of
`ConfigActivity` and the directory it stores is stored already. -/
theorem failsInvisibly_iff (st : UnzipState) :
    FailsInvisibly io assets owner path st ↔
      Unhindered io assets path (unpackProgram assets) { st with assetHashes := [] } ∨
        owner = .config ∧ Config.getOption st.mPrefs .resLocalDataDir = .ok (path ++ "/data") := by
  have stored := DataUnpackerTask.run_getOption io assets owner path st
  have started := DataUnpackerTask.run_startGame_iff io assets owner path st
  rw [← unhindered_iff, ← unzipLoops_ends_iff]
  constructor
  · intro hides
    have failed := hides.failed
    have success := hides.success
    rw [stored, started] at failed success
    by_cases same : owner = .config ∧
        Config.getOption st.mPrefs .resLocalDataDir = .ok (path ++ "/data")
    · exact Or.inr same
    · -- the task changes the directory or starts the game, so it must not have failed
      have visible : (Except.ok (owner.storedDir path) ≠
          Config.getOption st.mPrefs .resLocalDataDir) ∨ owner = .preloader := by
        cases owner with
        | preloader => exact Or.inr rfl
        | config => exact Or.inl fun h => same ⟨rfl, h.symm⟩
      refine Or.inl ⟨?_, success visible⟩
      by_contra stops
      obtain ⟨kept, noGame⟩ := failed stops
      rcases visible with changed | game
      · exact changed kept
      · exact noGame game
  · rintro (⟨ends, unpacked⟩ | ⟨rfl, same⟩)
    · exact ⟨fun stops => absurd ends stops, fun _ => unpacked⟩
    · have kept := stored.trans same.symm
      have noGame : .startGame ∉ (DataUnpackerTask.run io assets .config path st).actions := by
        simp [started]
      refine ⟨fun _ => ⟨kept, noGame⟩, fun changes => ?_⟩
      rcases changes with changed | game
      · exact absurd kept changed
      · exact absurd game noGame

end Task

def Schedule.failingAt (operation : Nat) : Schedule :=
  { Schedule.quiet with fault := fun clock => if clock = operation then some 0 else none }

section Concrete

attribute [local instance] emulator

/-- The archive cannot be opened; the launcher stores the directory and starts the game. -/
theorem not_failsInvisibly_release :
    ¬FailsInvisibly (.failingAt 1) (.release [1] none) .preloader "/sdcard/OpenApoc"
      ⟨FileTree.empty, 0, Preferences.empty, []⟩ := by
  rintro ⟨failed, _⟩
  have stops : ¬Ends (unzipLoops (.failingAt 1) (.release [1] none) "/sdcard/OpenApoc")
      ⟨FileTree.empty, 0, Preferences.empty, []⟩ := by decide +kernel
  have game : .startGame ∈ (DataUnpackerTask.run (.failingAt 1) (.release [1] none) .preloader
      "/sdcard/OpenApoc" ⟨FileTree.empty, 0, Preferences.empty, []⟩).actions := by decide +kernel
  exact (failed stops).2 game

end Concrete

end OpenApocLauncher
