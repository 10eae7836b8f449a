import Mathlib.Data.Finset.Basic
import OpenApocLauncher.Md5
import OpenApocLauncher.Radix

namespace OpenApocLauncher

/-- The known hashes are written in canonical form. -/
structure DataChecker where
  knownHashes : Finset String
  canonical : ∀ hash ∈ knownHashes, Radix.IsHex 32 hash

namespace DataChecker

def INSTANCE : DataChecker where
  knownHashes := {"1b474249cd99a771e996d2c1e22dcc0d"}
  canonical := by decide +kernel

def isValidData (dataChecker : DataChecker) (dataHash : String) : Bool :=
  decide (dataHash ∈ dataChecker.knownHashes)

end DataChecker

/-- The buffers in which a stream delivers some bytes: none is empty or larger than the
8192 bytes that are asked for. -/
structure Reads (bytes : List UInt8) where
  buffers : List (List UInt8)
  sizes : ∀ buffer ∈ buffers, 1 ≤ buffer.length ∧ buffer.length ≤ 8192
  flatten : buffers.flatten = bytes

/-- What a check meets at the path of its file; `length` is the answer of `File.length`. -/
inductive IsoFile
  | missing
  | unopenable (length : Nat)
  /-- read to its end -/
  | complete (length : Nat) (content : List UInt8) (reads : Reads content)
  /-- an IOException after the first `count` bytes -/
  | broken (length : Nat) (content : List UInt8) (count : Nat) (reads : Reads (content.take count))

def toLong (n : Int) : Int := Int.bmod n (2 ^ 64)

/-- The local variables of the reading loop, the digest as the bytes it was updated with, and
the pairs that were published. -/
structure IsoCheck where
  digest : List UInt8
  alreadyRead : Int
  published : List (Int × Int)

structure IsoVerdict where
  valid : Bool
  published : List (Int × Int)

namespace IsoCheckerTask

/-- `new BigInteger(1, digest).toString(16)`. -/
def hashText (digest : Md5.Digest) : String :=
  String.ofList (Nat.toDigits 16 (Radix.value 256 (digest.toList.map UInt8.toNat)))

def readBuffer (fileSize : Int) (check : IsoCheck) (buffer : List UInt8) : IsoCheck :=
  let alreadyRead := toLong (check.alreadyRead + buffer.length)
  { digest := check.digest ++ buffer
    alreadyRead
    published := check.published ++ [(fileSize, alreadyRead)] }

def finish (dataChecker : DataChecker) (check : IsoCheck) : IsoVerdict :=
  ⟨dataChecker.isValidData (hashText (Md5.digest check.digest)), check.published⟩

def doInBackground (dataChecker : DataChecker) (file : IsoFile) : IsoVerdict :=
  let start : IsoCheck := ⟨[], 0, []⟩
  match file with
  | .missing => ⟨false, []⟩
  -- the catch blocks only log: the digest of what was read is compared
  | .unopenable _ => finish dataChecker start
  | .complete length _ reads => finish dataChecker (reads.buffers.foldl (readBuffer length) start)
  | .broken length _ _ reads => finish dataChecker (reads.buffers.foldl (readBuffer length) start)

theorem digest_reads (fileSize : Int) (buffers : List (List UInt8)) (check : IsoCheck) :
    (buffers.foldl (readBuffer fileSize) check).digest = check.digest ++ buffers.flatten := by
  induction buffers generalizing check with
  | nil => simp
  | cons buffer buffers ih =>
    rw [List.foldl_cons, ih, List.flatten_cons]
    exact List.append_assoc _ _ _

def bytesRead : IsoFile → Option (List UInt8)
  | .missing => none
  | .unopenable _ => some []
  | .complete _ content _ => some content
  | .broken _ content count _ => some (content.take count)

theorem doInBackground_valid (dataChecker : DataChecker) (file : IsoFile) :
    (doInBackground dataChecker file).valid = true ↔
      ∃ bytes, bytesRead file = some bytes ∧
        hashText (Md5.digest bytes) ∈ dataChecker.knownHashes := by
  cases file with
  | missing => simp [doInBackground, bytesRead]
  | unopenable length => simp [doInBackground, bytesRead, finish, DataChecker.isValidData]
  | complete length content reads =>
    simp [doInBackground, bytesRead, finish, DataChecker.isValidData, digest_reads, reads.flatten]
  | broken length content count reads =>
    simp [doInBackground, bytesRead, finish, DataChecker.isValidData, digest_reads, reads.flatten]

/-- The form in which the build and the known hashes write a digest. -/
def canonicalHash (digest : Md5.Digest) : String :=
  String.ofList ((Radix.nibbles digest.toList).map Nat.digitChar)

theorem canonicalHash_isHex (digest : Md5.Digest) : Radix.IsHex 32 (canonicalHash digest) := by
  constructor
  · rw [canonicalHash, String.toList_ofList, List.length_map, Radix.length_nibbles,
      Vector.length_toList]
  · apply List.all_eq_true.mpr
    intro c mem
    rw [canonicalHash, String.toList_ofList] at mem
    obtain ⟨digit, inside, rfl⟩ := List.mem_map.mp mem
    simpa using Radix.digitChar_mem_hexDigits (Radix.nibbles_lt _ digit inside)

theorem toList_eq_cons (digest : Md5.Digest) :
    ∃ rest, digest.toList = digest.lead :: rest ∧ rest.length = 15 := by
  have length : digest.toList.length = 16 := Vector.length_toList
  cases h : digest.toList with
  | nil => simp [h] at length
  | cons first rest =>
    have head : digest.lead = first := by
      rw [Md5.Digest.lead, ← Vector.getElem_toList (by omega)]
      simp [h]
    refine ⟨rest, by rw [head], ?_⟩
    simpa [h] using length

theorem hashText_of_lead {digest : Md5.Digest} (lead : 16 ≤ digest.lead.toNat) :
    hashText digest = canonicalHash digest := by
  obtain ⟨rest, split, _⟩ := toList_eq_cons digest
  have first : digest.lead.toNat / 16 ≠ 0 := by omega
  rw [hashText, canonicalHash, ← Radix.value_nibbles, split, Radix.nibbles_cons,
    Radix.toDigits_value (by omega) first]
  rw [← Radix.nibbles_cons]
  exact Radix.nibbles_lt _

theorem length_hashText_of_zero {digest : Md5.Digest} (zero : digest.lead.toNat < 16) :
    (hashText digest).toList.length < 32 := by
  obtain ⟨rest, split, length⟩ := toList_eq_cons digest
  have first : digest.lead.toNat / 16 = 0 := by omega
  have small : ∀ d ∈ digest.lead.toNat % 16 :: Radix.nibbles rest, d < 16 := by
    intro d mem
    exact Radix.nibbles_lt (digest.lead :: rest) d (List.mem_cons_of_mem _ mem)
  have bound := Radix.length_toDigits_zero_cons (by omega) (by simp) small
  rw [hashText, String.toList_ofList, ← Radix.value_nibbles, split, Radix.nibbles_cons, first]
  rw [List.length_cons, Radix.length_nibbles, length] at bound
  omega

theorem hashText_mem_iff (dataChecker : DataChecker) (digest : Md5.Digest) :
    hashText digest ∈ dataChecker.knownHashes ↔
      16 ≤ digest.lead.toNat ∧ canonicalHash digest ∈ dataChecker.knownHashes := by
  by_cases lead : 16 ≤ digest.lead.toNat
  · rw [hashText_of_lead lead]
    simp [lead]
  · have short := length_hashText_of_zero (Nat.lt_of_not_le lead)
    constructor
    · intro known
      have length := (dataChecker.canonical _ known).1
      omega
    · exact fun h => absurd h.1 lead

theorem hashText_mem_agrees_iff (dataChecker : DataChecker) (digest : Md5.Digest) :
    (hashText digest ∈ dataChecker.knownHashes ↔ canonicalHash digest ∈ dataChecker.knownHashes) ↔
      ¬(digest.lead.toNat < 16 ∧ canonicalHash digest ∈ dataChecker.knownHashes) := by
  rw [hashText_mem_iff]
  constructor
  · rintro same ⟨zero, known⟩
    have lead := (same.mpr known).1
    omega
  · intro apart
    refine ⟨And.right, fun known => ⟨?_, known⟩⟩
    by_contra zero
    exact apart ⟨Nat.lt_of_not_le zero, known⟩

theorem doInBackground_complete (dataChecker : DataChecker) (length : Nat) (content : List UInt8)
    (reads : Reads content) :
    (doInBackground dataChecker (.complete length content reads)).valid = true ↔
      hashText (Md5.digest content) ∈ dataChecker.knownHashes := by
  rw [doInBackground_valid]
  simp [bytesRead]

/-- A file that is read to its end is accepted as its canonical hash demands, except when the
known hash begins with a zero. -/
theorem acceptance_iff (dataChecker : DataChecker) (length : Nat) (content : List UInt8)
    (reads : Reads content) :
    ((doInBackground dataChecker (.complete length content reads)).valid = true ↔
        canonicalHash (Md5.digest content) ∈ dataChecker.knownHashes) ↔
      ¬((Md5.digest content).lead.toNat < 16 ∧
        canonicalHash (Md5.digest content) ∈ dataChecker.knownHashes) := by
  rw [doInBackground_complete]
  exact hashText_mem_agrees_iff dataChecker (Md5.digest content)

/-- The one-byte file `a`, whose MD5 begins with a zero, is refused although it is known. -/
theorem refused_of_leading_zero :
    let dataChecker : DataChecker := ⟨{"0cc175b9c0f1b6a831c399e269772661"}, by decide +kernel⟩
    canonicalHash (Md5.digest [0x61]) ∈ dataChecker.knownHashes ∧
      (doInBackground dataChecker (.complete 1 [0x61] ⟨[[0x61]], by decide, by decide⟩)).valid =
        false := by
  decide +kernel

end IsoCheckerTask

end OpenApocLauncher
