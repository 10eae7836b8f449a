import OpenApocLauncher.AssetUnzipper

namespace OpenApocLauncher

/-- One elementary step of an unpack: a call on the assets, or a whole zip entry. -/
inductive Work
  | list
  | openAsset (assetName : String)
  | entry (ze : ZipEntry)
  | closeAsset (assetName : String)
  deriving DecidableEq

open AssetUnzipper

section Perform

variable (io : Schedule) (assets : Bundle) (path : String)

def Work.perform : Work → Io Unit
  | .list => Io.attempt io
  | .openAsset _ => Io.attempt io
  | .entry ze => do
    Io.attempt io
    unzipEntry io path ze
  | .closeAsset assetName => do
    Io.attempt io
    modify (putHash assetName (getAssetHash assets assetName))

def performAll : List Work → Io Unit
  | [] => pure ()
  | work :: rest => do
    work.perform io assets path
    performAll rest

theorem performAll_append (first second : List Work) (st : UnzipState) :
    (performAll io assets path (first ++ second)).run st =
      (do performAll io assets path first; performAll io assets path second).run st := by
  induction first generalizing st with
  | nil => simp [performAll]
  | cons work first ih =>
    simp only [List.cons_append, performAll, EStateM.run_bind]
    cases h : (work.perform io assets path).run st with
    | ok u st' =>
      simp only [ih, EStateM.run_bind]
    | error e st' => rfl

theorem performAll_entries (assetName : String) (entries : List ZipEntry) (st : UnzipState) :
    (performAll io assets path (entries.map .entry ++ [.closeAsset assetName])).run st =
      (do unzipEntries io path entries
          modify (putHash assetName (getAssetHash assets assetName))).run st := by
  induction entries generalizing st with
  | nil =>
    simp only [List.map_nil, List.nil_append, performAll, Work.perform, unzipEntries,
      EStateM.run_bind]
    cases h : (Io.attempt io).run st with
    | ok u st' => rfl
    | error e st' => rfl
  | cons ze entries ih =>
    simp only [List.map_cons, List.cons_append, performAll, Work.perform, unzipEntries,
      EStateM.run_bind]
    cases h : (Io.attempt io).run st with
    | error e st' => rfl
    | ok u st' =>
      simp only
      cases hz : (unzipEntry io path ze).run st' with
      | error e st'' => rfl
      | ok u st'' => simpa only [EStateM.run_bind] using ih st''

end Perform

section Program

variable [Device] (io : Schedule) (assets : Bundle) (path : String)

def assetWork (assetName : String) : List Work :=
  .openAsset assetName :: ((assets.entries assetName).map .entry ++ [.closeAsset assetName])

def dataZips : List String := assets.names.filter isDataZip

def unpackProgram : List Work := .list :: (dataZips assets).flatMap (assetWork assets)

theorem unzipArchives_eq_program (names : List String) (st : UnzipState) :
    (unzipArchives io assets path names).run st =
      (performAll io assets path ((names.filter isDataZip).flatMap (assetWork assets))).run st := by
  induction names generalizing st with
  | nil => rfl
  | cons assetName names ih =>
    by_cases zip : isDataZip assetName = true
    · rw [List.filter_cons_of_pos zip, List.flatMap_cons, performAll_append]
      simp only [unzipArchives, if_pos zip, assetWork, performAll, Work.perform, EStateM.run_bind]
      cases ha : (Io.attempt io).run st with
      | error e st' => rfl
      | ok u st' =>
        have entries := performAll_entries io assets path assetName (assets.entries assetName) st'
        simp only [EStateM.run_bind] at entries
        simp only [entries]
        cases hz : (unzipEntries io path (assets.entries assetName)).run st' with
        | error e st'' => rfl
        | ok u st'' => exact ih _
    · rw [List.filter_cons_of_neg zip]
      simp only [unzipArchives, if_neg zip]
      exact ih st

/-- The nested loops of `unzipAssets` perform the steps of the program one after the other. -/
theorem unzipLoops_eq_program (st : UnzipState) :
    (unzipLoops io assets path).run st =
      (performAll io assets path (unpackProgram assets)).run st := by
  simp only [unzipLoops, unpackProgram, performAll, Work.perform, EStateM.run_bind]
  cases ha : (Io.attempt io).run st with
  | error e st' => rfl
  | ok u st' => exact unzipArchives_eq_program io assets path assets.names st'

theorem unzipLoops_ends_iff (st : UnzipState) :
    Effects.Ends (unzipLoops io assets path) st ↔
      Effects.Ends (performAll io assets path (unpackProgram assets)) st := by
  simp only [Effects.Ends, unzipLoops_eq_program]

/-- What `unzipAssets` leaves: the record of the archives that were finished. -/
theorem unzipAssets_run (st : UnzipState) :
    (unzipAssets io assets path).run st =
      .ok () (storeRecord (Effects.final (performAll io assets path (unpackProgram assets))
        { st with assetHashes := [] })) := by
  have loops := unzipLoops_eq_program io assets path { st with assetHashes := [] }
  simp only [unzipAssets, EStateM.run_bind, EStateM.run_modify, Effects.run_swallow]
  rw [Effects.final, Effects.final, loops]

end Program

end OpenApocLauncher
