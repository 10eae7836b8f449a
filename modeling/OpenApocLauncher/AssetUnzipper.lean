import Mathlib.Data.Finset.Dedup
import OpenApocLauncher.Config
import OpenApocLauncher.Effects
import OpenApocLauncher.FileTree
import OpenApocLauncher.Text

namespace OpenApocLauncher

structure ZipEntry where
  name : String
  content : List UInt8
  deriving DecidableEq

def ZipEntry.isDirectory (ze : ZipEntry) : Bool := Text.endsWith ze.name "/"

/-- The assets of one app version: the names `assets.list("")` answers, the entries of the
archive behind a name, and the text of an asset, `none` when opening or reading it fails. -/
structure Bundle where
  names : List String
  nodup : names.Nodup
  entries : String → List ZipEntry
  text : String → Option String

def Bundle.release (content : List UInt8) (md5 : Option String) : Bundle where
  names := ["data.zip", "data.zip.md5"]
  nodup := by decide
  entries _ := [⟨"data/", []⟩, ⟨"data/rules.xml", content⟩]
  text assetName := if assetName = "data.zip.md5" then md5 else none

structure IOException where
  deriving DecidableEq

/-- What the operations on streams and files meet, by the number of the operation: whether
it fails, after how much of its effect, and into which reads an entry is split. -/
structure Schedule where
  fault : Nat → Option Nat
  chunks : Nat → List UInt8 → List (List UInt8)
  flatten_chunks : ∀ clock content, (chunks clock content).flatten = content

def Schedule.quiet : Schedule where
  fault _ := none
  chunks _ content := [content]
  flatten_chunks := by simp

/-- What an unpack works on: the external storage, the number of operations so far, the
preferences, and the map `assetHashes`. -/
structure UnzipState where
  tree : FileTree String (List UInt8)
  clock : Nat
  mPrefs : Preferences
  assetHashes : List (String × String)

abbrev Io := EStateM IOException UnzipState

namespace Io

variable (io : Schedule)

def tick : Io (Option Nat) := fun st => .ok (io.fault st.clock) { st with clock := st.clock + 1 }

def attempt : Io Unit := do
  match ← tick io with
  | none => pure ()
  | some _ => throw ⟨⟩

def fileExists (path : FilePath) : Io Bool := do return (← get).tree.exists? path

/-- `File.mkdir`: a failure is its answer, not an exception. -/
def mkdir (path : FilePath) : Io Bool := do
  match ← tick io with
  | some _ => return false
  | none =>
    match (← get).tree.mkdir path with
    | some tree =>
      modify fun st => { st with tree }
      return true
    | none => return false

def mkdirs : FilePath → Io Bool
  | [] => return false
  | name :: dir => do
    if ← fileExists (name :: dir) then return false
    else if ← mkdir io (name :: dir) then return true
    else if ← mkdirs dir then mkdir io (name :: dir)
    else if ← fileExists dir then mkdir io (name :: dir)
    else return false

/-- `new FileOutputStream(outFile)`: the file is there and empty afterwards. -/
def create (outFile : FilePath) : Io Unit := do
  attempt io
  match (← get).tree.store [] outFile with
  | some tree => modify fun st => { st with tree }
  | none => throw ⟨⟩

def append (outFile : FilePath) (bytes : List UInt8) (st : UnzipState) : UnzipState :=
  match st.tree.node outFile with
  | some (.file old) =>
    match st.tree.store (old ++ bytes) outFile with
    | some tree => { st with tree }
    | none => st
  | _ => st

/-- `os.write`: a failing write may have landed a part of its bytes. -/
def write (outFile : FilePath) (bytes : List UInt8) : Io Unit := do
  match ← tick io with
  | none => modify (append outFile bytes)
  | some landed =>
    modify (append outFile (bytes.take landed))
    throw ⟨⟩

end Io

namespace AssetUnzipper

def getAssetHash (assets : Bundle) (assetName : String) : String :=
  let assetHashName := assetName ++ ".md5"
  match assets.text assetHashName with
  | some hash => hash
  | none => ""

section Unzip

variable (io : Schedule)

/-- The inner loop: read a buffer, write it, until the read answers -1. -/
def copyEntry (outFile : FilePath) : List (List UInt8) → Io Unit
  | [] => Io.attempt io
  | buffer :: rest => do
    Io.attempt io
    Io.write io outFile buffer
    copyEntry outFile rest

def unzipEntry (path : String) (ze : ZipEntry) : Io Unit := do
  let outFile := FilePath.resolve (path ++ "/" ++ ze.name)
  if ze.isDirectory then
    let _ ← Io.mkdirs io outFile
  else
    Io.create io outFile
    let reads := io.chunks (← get).clock ze.content
    copyEntry io outFile reads
    -- os.flush() and os.close()
    Io.attempt io

/-- The loop over `assetZip.getNextEntry()`, whose last call answers null. -/
def unzipEntries (path : String) : List ZipEntry → Io Unit
  | [] => Io.attempt io
  | ze :: rest => do
    Io.attempt io
    unzipEntry io path ze
    unzipEntries path rest

def putHash (assetName hash : String) (st : UnzipState) : UnzipState :=
  { st with
    assetHashes := st.assetHashes.filter (fun known => known.1 ≠ assetName) ++ [(assetName, hash)] }

def hashLine (assetName hash : String) : String := assetName ++ ":" ++ hash

def assetHashSet (assetHashes : List (String × String)) : Finset String :=
  (assetHashes.map fun known => hashLine known.1 known.2).toFinset

variable [Device]

def isDataZip (assetName : String) : Bool :=
  Text.endsWith (Device.toLowerCase assetName) ".zip"

/-- A failing `assets.list("")` is logged and leaves the set empty. -/
def getAssetDataZips (assets : Bundle) (listed : Bool) : Finset String :=
  if listed then (assets.names.filter isDataZip).toFinset else ∅

def unzipArchives (assets : Bundle) (path : String) : List String → Io Unit
  | [] => pure ()
  | assetName :: rest => do
    if isDataZip assetName then
      -- assets.open(assetName)
      Io.attempt io
      unzipEntries io path (assets.entries assetName)
      modify (putHash assetName (getAssetHash assets assetName))
      unzipArchives assets path rest
    else unzipArchives assets path rest

/-- The body of the try block. -/
def unzipLoops (assets : Bundle) (path : String) : Io Unit := do
  -- assets.list("")
  Io.attempt io
  unzipArchives io assets path assets.names

def storeRecord (st : UnzipState) : UnzipState :=
  { st with mPrefs := Config.setOptionSet st.mPrefs .androidDataHash (assetHashSet st.assetHashes) }

def unzipAssets (assets : Bundle) (path : String) : Io Unit := do
  modify fun st => { st with assetHashes := [] }
  tryCatch (unzipLoops io assets path) fun _ => pure ()
  modify storeRecord

end Unzip

end AssetUnzipper

end OpenApocLauncher
