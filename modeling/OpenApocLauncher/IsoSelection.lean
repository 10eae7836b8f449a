import OpenApocLauncher.Config
import OpenApocLauncher.IsoChecker
import OpenApocLauncher.Machine

namespace OpenApocLauncher

open IsoCheckerTask Machine

structure CheckedIso (dataChecker : DataChecker) where
  file : IsoFile
  verdict : IsoVerdict
  computed : verdict = doInBackground dataChecker file

structure IsoTask (dataChecker : DataChecker) where
  isoFilePath : String
  cancelled : Bool
  checked : Option (CheckedIso dataChecker)

/-- `ConfigActivity` choosing an ISO: the preferences and the checks that were started and have
not delivered their result. -/
structure IsoSelection (dataChecker : DataChecker) where
  mPrefs : Preferences
  tasks : List (IsoTask dataChecker)

inductive IsoEvent
  | pick (isoFilePath : String)
  | cancel (i : Nat)
  /-- `doInBackground` of a check; it shares nothing with the UI thread -/
  | check (i : Nat) (file : IsoFile)
  | deliver (i : Nat)

namespace IsoSelection

variable {dataChecker : DataChecker}

def onPostExecute (mPrefs : Preferences) (isoFilePath : String) (valid : Bool) : Preferences :=
  if valid then Config.setOption mPrefs .resLocalCdPath isoFilePath else mPrefs

/-- Android hands a result to `onCancelled`, which shows a message, when its task was cancelled,
and to `onPostExecute` otherwise. -/
def deliver (s : IsoSelection dataChecker) (i : Nat) : IsoSelection dataChecker :=
  match s.tasks[i]? with
  | none => s
  | some task =>
    let rest := s.tasks.eraseIdx i
    if task.cancelled then { s with tasks := rest }
    else
      match task.checked with
      | none => s
      | some checked =>
        ⟨onPostExecute s.mPrefs task.isoFilePath checked.verdict.valid, rest⟩

def step (s : IsoSelection dataChecker) : IsoEvent → IsoSelection dataChecker
  | .pick isoFilePath => { s with tasks := s.tasks ++ [⟨isoFilePath, false, none⟩] }
  | .cancel i => { s with tasks := s.tasks.modify i fun task => { task with cancelled := true } }
  | .check i file =>
    { s with tasks := s.tasks.modify i fun task =>
        if task.checked.isSome then task
        else { task with checked := some ⟨file, doInBackground dataChecker file, rfl⟩ } }
  | .deliver i => s.deliver i

def delivered? (s : IsoSelection dataChecker) : IsoEvent → Option (String × IsoFile)
  | .deliver i => do
    let task ← s.tasks[i]?
    let checked ← task.checked
    if task.cancelled then none else some (task.isoFilePath, checked.file)
  | _ => none

end IsoSelection

/-- The file was read to its end and the MD5 of all of it is a known hash. -/
def IsoFile.Verified (dataChecker : DataChecker) : IsoFile → Prop
  | .missing => False
  | .unopenable _ => False
  | .complete _ content _ => canonicalHash (Md5.digest content) ∈ dataChecker.knownHashes
  | .broken _ _ _ _ => False

def RecognisedBytes (dataChecker : DataChecker) (bytes : List UInt8) : Prop :=
  16 ≤ (Md5.digest bytes).lead.toNat ∧ canonicalHash (Md5.digest bytes) ∈ dataChecker.knownHashes

/-- A file that cannot be opened or read to its end, where the bytes that were read before have a
known hash, or a known file whose hash begins with a zero. -/
def IsoFile.Misjudged (dataChecker : DataChecker) : IsoFile → Prop
  | .missing => False
  | .unopenable _ => RecognisedBytes dataChecker []
  | .complete _ content _ => (Md5.digest content).lead.toNat < 16 ∧
      canonicalHash (Md5.digest content) ∈ dataChecker.knownHashes
  | .broken _ content count _ => RecognisedBytes dataChecker (content.take count)

theorem IsoFile.valid_iff_verified (dataChecker : DataChecker) (file : IsoFile) :
    ((doInBackground dataChecker file).valid = true ↔ file.Verified dataChecker) ↔
      ¬file.Misjudged dataChecker := by
  cases file with
  | missing => simp [doInBackground, IsoFile.Verified, IsoFile.Misjudged]
  | complete length content reads =>
    rw [doInBackground_complete]
    exact hashText_mem_agrees_iff dataChecker (Md5.digest content)
  | unopenable length =>
    rw [doInBackground_valid, IsoFile.Verified, IsoFile.Misjudged, RecognisedBytes]
    simp only [bytesRead, Option.some.injEq, exists_eq_left', hashText_mem_iff, iff_false]
  | broken length content count reads =>
    rw [doInBackground_valid, IsoFile.Verified, IsoFile.Misjudged, RecognisedBytes]
    simp only [bytesRead, Option.some.injEq, exists_eq_left', hashText_mem_iff, iff_false]

/-- The shipped hash begins with a one: a file read to its end is never misjudged. -/
theorem IsoFile.not_misjudged_complete (length : Nat) (content : List UInt8) (reads : Reads content) :
    ¬(IsoFile.complete length content reads).Misjudged .INSTANCE := by
  rintro ⟨zero, known⟩
  obtain ⟨rest, split, _⟩ := toList_eq_cons (Md5.digest content)
  have first : (Md5.digest content).lead.toNat / 16 = 0 := by omega
  have text := congrArg String.toList (Finset.mem_singleton.mp known)
  rw [canonicalHash, String.toList_ofList, split, Radix.nibbles_cons, first, List.map_cons] at text
  exact absurd (List.cons.inj text).1 (by decide)

namespace IsoSelection

variable {dataChecker : DataChecker}

section Steps

variable [Device]

/-- The CD path becomes the path of a verified file that is delivered, and nothing else
changes it. -/
def CommitsVerified (s : IsoSelection dataChecker) (event : IsoEvent) : Prop :=
  let before := Config.getOption s.mPrefs .resLocalCdPath
  let after := Config.getOption (s.step event).mPrefs .resLocalCdPath
  match s.delivered? event with
  | some (isoFilePath, file) =>
    (file.Verified dataChecker → after = .ok isoFilePath) ∧
      (¬file.Verified dataChecker → after = before)
  | none => after = before

/-- No misjudged file is delivered, unless its path is the CD path already. -/
def DeliversJudged (s : IsoSelection dataChecker) (event : IsoEvent) : Prop :=
  match s.delivered? event with
  | some (isoFilePath, file) =>
    file.Misjudged dataChecker → Config.getOption s.mPrefs .resLocalCdPath = .ok isoFilePath
  | none => True

theorem getOption_onPostExecute (mPrefs : Preferences) (isoFilePath : String) (valid : Bool) :
    Config.getOption (onPostExecute mPrefs isoFilePath valid) .resLocalCdPath =
      if valid then .ok isoFilePath else Config.getOption mPrefs .resLocalCdPath := by
  cases valid with
  | true => exact Config.getOption_setOption_self mPrefs _ isoFilePath
  | false => rfl

omit [Device] in
theorem mPrefs_of_not_delivered {s : IsoSelection dataChecker} {event : IsoEvent}
    (h : s.delivered? event = none) : (s.step event).mPrefs = s.mPrefs := by
  cases event with
  | deliver i =>
    simp only [delivered?, step, deliver] at h ⊢
    cases ht : s.tasks[i]? with
    | none => rfl
    | some task =>
      cases hc : task.checked with
      | none => cases hcancel : task.cancelled <;> simp [hc, hcancel]
      | some checked =>
        cases hcancel : task.cancelled with
        | true => simp [hcancel]
        | false => simp [ht, hc, hcancel] at h
  | _ => rfl

omit [Device] in
theorem mPrefs_of_delivered {s : IsoSelection dataChecker} {event : IsoEvent} {isoFilePath : String}
    {file : IsoFile} (h : s.delivered? event = some (isoFilePath, file)) :
    (s.step event).mPrefs =
      onPostExecute s.mPrefs isoFilePath (doInBackground dataChecker file).valid := by
  cases event with
  | deliver i =>
    simp only [delivered?, step, deliver] at h ⊢
    cases ht : s.tasks[i]? with
    | none => simp [ht] at h
    | some task =>
      cases hc : task.checked with
      | none => simp [ht, hc] at h
      | some checked =>
        cases hcancel : task.cancelled with
        | true => simp [ht, hc, hcancel] at h
        | false =>
          simp only [ht, hc, hcancel, Option.bind_some, Bool.false_eq_true, if_false,
            Option.bind_eq_bind, Option.some.injEq, Prod.mk.injEq] at h ⊢
          obtain ⟨rfl, rfl⟩ := h
          rw [checked.computed]
  | _ => simp [delivered?] at h

theorem commitsVerified_iff (s : IsoSelection dataChecker) (event : IsoEvent) :
    s.CommitsVerified event ↔ s.DeliversJudged event := by
  unfold CommitsVerified DeliversJudged
  cases h : s.delivered? event with
  | none => simp [mPrefs_of_not_delivered h]
  | some result =>
    obtain ⟨isoFilePath, file⟩ := result
    simp only [mPrefs_of_delivered h, getOption_onPostExecute]
    have judged := file.valid_iff_verified dataChecker
    by_cases misjudged : file.Misjudged dataChecker
    · -- the verdict is the opposite of the right one, so both cases ask for the same value
      have wrong : ¬((doInBackground dataChecker file).valid = true ↔ file.Verified dataChecker) :=
        fun right => judged.mp right misjudged
      by_cases valid : (doInBackground dataChecker file).valid = true
      · have unverified : ¬file.Verified dataChecker := fun v => wrong (iff_of_true valid v)
        simp [valid, unverified, misjudged, eq_comm]
      · have verified : file.Verified dataChecker := by
          by_contra v
          exact wrong (iff_of_false valid v)
        simp [valid, verified, misjudged]
    · have right := judged.mpr misjudged
      by_cases valid : (doInBackground dataChecker file).valid = true
      · simp [valid, right.mp valid, misjudged]
      · have unverified : ¬file.Verified dataChecker := fun v => valid (right.mpr v)
        simp [valid, unverified, misjudged]

/-- All steps of a run commit only verified files exactly when no step delivers a misjudged
one. -/
theorem run_commitsVerified_iff (start : IsoSelection dataChecker) (events : List IsoEvent) :
    Guarded step CommitsVerified start events ↔ Guarded step DeliversJudged start events := by
  induction events generalizing start with
  | nil => exact Iff.rfl
  | cons event events ih => exact and_congr (commitsVerified_iff start event) (ih _)

end Steps

section Concrete

attribute [local instance] emulator

/-- Reading `abcd` fails after `abc`, whose MD5 is known: the file becomes the CD path. -/
theorem not_commitsVerified_broken :
    let dataChecker : DataChecker := ⟨{"900150983cd24fb0d6963f7d28e17f72"}, by decide +kernel⟩
    let file : IsoFile :=
      .broken 4 [0x61, 0x62, 0x63, 0x64] 3 ⟨[[0x61, 0x62, 0x63]], by decide, by decide⟩
    ¬Guarded step CommitsVerified (⟨Preferences.empty, []⟩ : IsoSelection dataChecker)
      [.pick "/sdcard/x.iso", .check 0 file, .deliver 0] := by
  intro dataChecker file guarded
  have delivery := guarded.2.2.1
  have kept := delivery.2 (fun verified => verified)
  exact absurd kept (by decide +kernel)

end Concrete

end IsoSelection

end OpenApocLauncher
