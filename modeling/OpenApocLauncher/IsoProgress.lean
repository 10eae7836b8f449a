import OpenApocLauncher.IsoChecker

namespace OpenApocLauncher

structure ArithmeticException where
  deriving DecidableEq

/-- Java's narrowing of a `long` to an `int`. -/
def toInt (n : Int) : Int := Int.bmod n (2 ^ 32)

theorem toLong_of_lt {n : Nat} (h : n < 2 ^ 63) : toLong n = n :=
  Int.bmod_eq_of_le (by omega) (by omega)

theorem toInt_of_lt {n : Nat} (h : n < 2 ^ 31) : toInt n = n :=
  Int.bmod_eq_of_le (by omega) (by omega)

/-- The length `File.length` reports before the file is read. -/
def IsoFile.reported : IsoFile → Nat
  | .missing => 0
  | .unopenable length => length
  | .complete length _ _ => length
  | .broken length _ _ _ => length

def IsoFile.buffers : IsoFile → List (List UInt8)
  | .missing => []
  | .unopenable _ => []
  | .complete _ _ reads => reads.buffers
  | .broken _ _ _ reads => reads.buffers

def IsoFile.delivered (file : IsoFile) : Nat := file.buffers.flatten.length

theorem IsoFile.buffer_length_pos (file : IsoFile) : ∀ buffer ∈ file.buffers, 1 ≤ buffer.length := by
  intro buffer mem
  cases file with
  | missing => simp [IsoFile.buffers] at mem
  | unopenable length => simp [IsoFile.buffers] at mem
  | complete length content reads => exact (reads.sizes buffer mem).1
  | broken length content count reads => exact (reads.sizes buffer mem).1

namespace IsoCheckerTask

/-- Division of `long` values. -/
def divide (dividend divisor : Int) : Except ArithmeticException Int :=
  if divisor = 0 then .error ⟨⟩ else .ok (toLong (dividend.tdiv divisor))

/-- What `onProgressUpdate` casts to `int`; `values` are the file size and the bytes read so far. -/
def progressQuotient (values : Int × Int) : Except ArithmeticException Int :=
  divide (toLong (values.2 * 10000)) values.1

def onProgressUpdate (values : Int × Int) : Except ArithmeticException Int := do
  let quotient ← progressQuotient values
  return toInt quotient

/-- Each published pair gives a value between 0 and 10000 that the cast keeps, and these values
never decrease. -/
structure ProgressSafe (published : List (Int × Int)) : Prop where
  shown : ∀ values ∈ published, ∃ progress, progressQuotient values = .ok progress ∧
    onProgressUpdate values = .ok progress ∧ 0 ≤ progress ∧ progress ≤ 10000
  increasing : published.Pairwise fun earlier later => ∀ first second,
    onProgressUpdate earlier = .ok first → onProgressUpdate later = .ok second → first ≤ second

theorem progressQuotient_of_lt {size total : Nat} (h : total * 10000 < 2 ^ 63) (pos : 0 < size) :
    progressQuotient (size, total) = .ok ((total * 10000 / size : Nat) : Int) := by
  have product : (total : Int) * 10000 = ((total * 10000 : Nat) : Int) := by omega
  have smaller : total * 10000 / size ≤ total * 10000 := Nat.div_le_self _ _
  have divisor : (size : Int) ≠ 0 := by omega
  rw [progressQuotient, divide, if_neg divisor, product, toLong_of_lt h, ← Int.ofNat_tdiv,
    toLong_of_lt (by omega)]

theorem onProgressUpdate_of_le {size total : Nat} (h : total * 10000 < 2 ^ 63) (pos : 0 < size)
    (le : total * 10000 / size ≤ 10000) :
    onProgressUpdate (size, total) = .ok ((total * 10000 / size : Nat) : Int) := by
  have narrow := toInt_of_lt (n := total * 10000 / size) (by omega)
  rw [onProgressUpdate, progressQuotient_of_lt h pos]
  exact congrArg Except.ok narrow

/-- The running total after each buffer. -/
def runningTotals (start : Nat) : List (List UInt8) → List Nat
  | [] => []
  | buffer :: rest => (start + buffer.length) :: runningTotals (start + buffer.length) rest

theorem runningTotals_bounds {start : Nat} {buffers : List (List UInt8)} :
    ∀ total ∈ runningTotals start buffers,
      start ≤ total ∧ total ≤ start + buffers.flatten.length := by
  induction buffers generalizing start with
  | nil => simp [runningTotals]
  | cons buffer buffers ih =>
    intro total mem
    have length : (buffer :: buffers).flatten.length = buffer.length + buffers.flatten.length := by
      simp
    rcases List.mem_cons.mp mem with here | later
    · omega
    · have bounds := ih total later
      omega

theorem runningTotals_sorted (start : Nat) (buffers : List (List UInt8)) :
    (runningTotals start buffers).Pairwise (· ≤ ·) := by
  induction buffers generalizing start with
  | nil => exact List.Pairwise.nil
  | cons buffer buffers ih =>
    refine List.pairwise_cons.mpr ⟨?_, ih _⟩
    intro total mem
    exact (runningTotals_bounds total mem).1

theorem runningTotals_last (start : Nat) {buffers : List (List UInt8)} (more : buffers ≠ []) :
    start + buffers.flatten.length ∈ runningTotals start buffers := by
  induction buffers generalizing start with
  | nil => exact absurd rfl more
  | cons buffer buffers ih =>
    have length : (buffer :: buffers).flatten.length = buffer.length + buffers.flatten.length := by
      simp
    by_cases last : buffers = []
    · subst last
      simp [runningTotals]
    · have later := ih (start + buffer.length) last
      rw [length, ← Nat.add_assoc]
      exact List.mem_cons_of_mem _ later

/-- The loop publishes the file size with the running total after each buffer. -/
theorem published_foldl (fileSize : Int) (buffers : List (List UInt8)) {check : IsoCheck}
    {start : Nat} (read : check.alreadyRead = start) (h : start + buffers.flatten.length < 2 ^ 63) :
    (buffers.foldl (readBuffer fileSize) check).published =
      check.published ++ (runningTotals start buffers).map fun total : Nat => (fileSize, (total : Int)) := by
  induction buffers generalizing check start with
  | nil => simp [runningTotals]
  | cons buffer buffers ih =>
    have length : (buffer :: buffers).flatten.length = buffer.length + buffers.flatten.length := by
      simp
    have sum : check.alreadyRead + buffer.length = ((start + buffer.length : Nat) : Int) := by omega
    have next : (readBuffer fileSize check buffer).alreadyRead = (start + buffer.length : Nat) := by
      simp only [readBuffer, sum]
      exact toLong_of_lt (by omega)
    rw [List.foldl_cons, ih next (by omega), runningTotals, List.map_cons]
    have added : (readBuffer fileSize check buffer).published =
        check.published ++ [(fileSize, ((start + buffer.length : Nat) : Int))] := by
      rw [← next]
      rfl
    rw [added, List.append_assoc, List.singleton_append]

theorem doInBackground_published (dataChecker : DataChecker) (file : IsoFile)
    (h : file.delivered < 2 ^ 63) :
    (doInBackground dataChecker file).published =
      (runningTotals 0 file.buffers).map fun total : Nat => ((file.reported : Int), (total : Int)) := by
  have loop (length : Nat) : (file.buffers.foldl (readBuffer length) ⟨[], 0, []⟩).published =
      (runningTotals 0 file.buffers).map fun total : Nat => ((length : Int), (total : Int)) := by
    have start : (⟨[], 0, []⟩ : IsoCheck).alreadyRead = (0 : Nat) := rfl
    have all := published_foldl length file.buffers start (by rw [Nat.zero_add]; exact h)
    simpa using all
  cases file with
  | missing => rfl
  | unopenable length => rfl
  | complete length content reads => exact loop length
  | broken length content count reads => exact loop length

theorem IsoFile.delivered_ne_zero {file : IsoFile} {total : Nat}
    (mem : total ∈ runningTotals 0 file.buffers) : file.delivered ≠ 0 := by
  intro none
  cases first : file.buffers with
  | nil => simp [first, runningTotals] at mem
  | cons buffer rest =>
    have size := file.buffer_length_pos buffer (by simp [first])
    simp only [IsoFile.delivered, first, List.flatten_cons, List.length_append] at none
    omega

/-- What the last pair needs is enough for each. -/
theorem shown_of_small {file : IsoFile} (h : file.delivered * 10000 < 2 ^ 63)
    (small : file.delivered = 0 ∨ file.delivered * 10000 < file.reported * 10001) :
    ∀ total ∈ runningTotals 0 file.buffers, 0 < file.reported ∧ total * 10000 < 2 ^ 63 ∧
      total * 10000 / file.reported ≤ 10000 := by
  intro total mem
  have bounds := (runningTotals_bounds total mem).2
  rw [Nat.zero_add] at bounds
  change total ≤ file.delivered at bounds
  have few := small.resolve_left (IsoFile.delivered_ne_zero mem)
  have pos : 0 < file.reported := by omega
  have scaled : total * 10000 ≤ file.delivered * 10000 := Nat.mul_le_mul_right _ bounds
  have below := Nat.div_lt_of_lt_mul (Nat.lt_of_le_of_lt scaled few)
  exact ⟨pos, Nat.lt_of_le_of_lt scaled h, by omega⟩

theorem progressSafe_of_small {file : IsoFile} (h : file.delivered * 10000 < 2 ^ 63)
    (small : file.delivered = 0 ∨ file.delivered * 10000 < file.reported * 10001) :
    ProgressSafe ((runningTotals 0 file.buffers).map fun total : Nat =>
      ((file.reported : Int), (total : Int))) := by
  have shown := shown_of_small h small
  refine ⟨?_, ?_⟩
  · intro values mem
    obtain ⟨total, inside, rfl⟩ := List.mem_map.mp mem
    obtain ⟨pos, fits, le⟩ := shown total inside
    exact ⟨_, progressQuotient_of_lt fits pos, onProgressUpdate_of_le fits pos le,
      Int.natCast_nonneg _, Int.ofNat_le.mpr le⟩
  · rw [List.pairwise_map]
    refine (runningTotals_sorted 0 file.buffers).imp_of_mem ?_
    intro earlier later inEarlier inLater le first second hfirst hsecond
    obtain ⟨pos, fits, few⟩ := shown earlier inEarlier
    obtain ⟨_, fits', few'⟩ := shown later inLater
    rw [onProgressUpdate_of_le fits pos few] at hfirst
    rw [onProgressUpdate_of_le fits' pos few'] at hsecond
    have grown : earlier * 10000 / file.reported ≤ later * 10000 / file.reported :=
      Nat.div_le_div_right (by omega)
    have lower := Except.ok.inj hfirst
    have upper := Except.ok.inj hsecond
    omega

theorem small_of_progressSafe {file : IsoFile} (h : file.delivered * 10000 < 2 ^ 63)
    (safe : ProgressSafe ((runningTotals 0 file.buffers).map fun total : Nat =>
      ((file.reported : Int), (total : Int)))) :
    file.delivered = 0 ∨ file.delivered * 10000 < file.reported * 10001 := by
  by_cases none : file.delivered = 0
  · exact Or.inl none
  · have more : file.buffers ≠ [] := by
      intro empty
      simp [IsoFile.delivered, empty] at none
    have last := runningTotals_last 0 more
    rw [Nat.zero_add] at last
    obtain ⟨progress, quotient, _, _, bound⟩ := safe.shown _ (List.mem_map_of_mem last)
    have pos : 0 < file.reported := by
      by_contra zero
      have empty : file.reported = 0 := by omega
      simp [progressQuotient, divide, empty] at quotient
    change progressQuotient (file.reported, file.delivered) = .ok progress at quotient
    rw [progressQuotient_of_lt h pos] at quotient
    have value := Except.ok.inj quotient
    have le : file.delivered * 10000 / file.reported ≤ 10000 := by omega
    have lt := (Nat.div_lt_iff_lt_mul pos).mp (Nat.lt_succ_of_le le)
    exact Or.inr (by omega)

/-- The progress of a check is safe exactly when the file delivers nothing, or less than a
ten-thousandth more than it was long at the start. -/
theorem progressSafe_iff (dataChecker : DataChecker) (file : IsoFile)
    (h : file.delivered * 10000 < 2 ^ 63) :
    ProgressSafe (doInBackground dataChecker file).published ↔
      file.delivered = 0 ∨ file.delivered * 10000 < file.reported * 10001 := by
  rw [doInBackground_published dataChecker file (by omega)]
  exact ⟨small_of_progressSafe h, progressSafe_of_small h⟩

/-- A file of two bytes, as long as it was reported. -/
theorem progressSafe_twoBytes :
    ProgressSafe (doInBackground .INSTANCE
      (.complete 2 [0x61, 0x62] ⟨[[0x61], [0x62]], by decide, by decide⟩)).published :=
  (progressSafe_iff .INSTANCE (.complete 2 [0x61, 0x62] ⟨[[0x61], [0x62]], by decide, by decide⟩)
    (by decide)).mpr (Or.inr (by decide))

/-- A download that was still empty when its length was taken: a division by zero. -/
theorem not_progressSafe_growing :
    ¬ProgressSafe (doInBackground .INSTANCE
      (.complete 0 [0x61] ⟨[[0x61]], by decide, by decide⟩)).published := by
  intro safe
  obtain ⟨progress, quotient, _⟩ := safe.shown (0, 1) (by decide +kernel)
  exact absurd quotient (by simp [progressQuotient, divide])

end IsoCheckerTask

end OpenApocLauncher
