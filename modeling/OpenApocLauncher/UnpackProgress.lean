import OpenApocLauncher.Extraction
import OpenApocLauncher.IsoProgress
import OpenApocLauncher.Logged

namespace OpenApocLauncher

open AssetUnzipper Effects Logged

/-- `Integer.toString` and `Integer.parseInt`, in ASCII digits. -/
def Integer.toString (n : Int) : String :=
  let digits := String.ofList (Nat.toDigits 10 n.natAbs)
  if n < 0 then "-" ++ digits else digits

def Integer.parseDigits (negative : Bool) (digits : List Char) : Option Int :=
  if digits ≠ [] ∧ digits.all Char.isDigit then
    let magnitude : Int := Nat.ofDigitChars 10 digits 0
    let n := if negative then -magnitude else magnitude
    if -2 ^ 31 ≤ n ∧ n < 2 ^ 31 then some n else none
  else none

def Integer.parseInt (text : String) : Option Int :=
  match text.toList with
  | '-' :: digits => parseDigits true digits
  | '+' :: digits => parseDigits false digits
  | digits => parseDigits false digits

namespace Integer

theorem parseDigits_toDigits (negative : Bool) (magnitude : Nat) :
    parseDigits negative (Nat.toDigits 10 magnitude) =
      let n : Int := if negative then -magnitude else magnitude
      if -2 ^ 31 ≤ n ∧ n < 2 ^ 31 then some n else none := by
  have digits : Nat.toDigits 10 magnitude ≠ [] ∧ (Nat.toDigits 10 magnitude).all Char.isDigit = true :=
    ⟨Nat.toDigits_ne_nil, List.all_eq_true.mpr fun _ => Nat.isDigit_of_mem_toDigits (by decide) (by decide)⟩
  rw [parseDigits, if_pos digits, Nat.ofDigitChars_ten_toDigits]

theorem parseInt_of_isDigit {text : String} {c : Char} {cs : List Char} (split : text.toList = c :: cs)
    (digit : c.isDigit = true) : parseInt text = parseDigits false text.toList := by
  unfold parseInt
  split
  next sign =>
    obtain ⟨rfl, _⟩ := List.cons.inj (split.symm.trans sign)
    exact absurd digit (by decide)
  next sign =>
    obtain ⟨rfl, _⟩ := List.cons.inj (split.symm.trans sign)
    exact absurd digit (by decide)
  next => rfl

theorem parseInt_toString {n : Int} (low : -2 ^ 31 ≤ n) (high : n < 2 ^ 31) :
    parseInt (toString n) = some n := by
  by_cases negative : n < 0
  · have text : (toString n).toList = '-' :: Nat.toDigits 10 n.natAbs := by
      simp [toString, negative]
    have same : -(n.natAbs : Int) = n := by omega
    simp only [parseInt, text, parseDigits_toDigits, if_true, same]
    rw [if_pos ⟨low, high⟩]
  · have text : (toString n).toList = Nat.toDigits 10 n.natAbs := by
      simp [toString, negative]
    have same : (n.natAbs : Int) = n := by omega
    obtain ⟨c, cs, split⟩ := List.exists_cons_of_ne_nil (Nat.toDigits_ne_nil (n := n.natAbs) (b := 10))
    have digit : c.isDigit = true :=
      Nat.isDigit_of_mem_toDigits (by decide) (by decide) (split ▸ List.mem_cons_self)
    rw [parseInt_of_isDigit (text.trans split) digit, text, parseDigits_toDigits]
    simp only [Bool.false_eq_true, if_false, same]
    rw [if_pos ⟨low, high⟩]

end Integer

theorem toInt_bounds (n : Int) : -2 ^ 31 ≤ toInt n ∧ toInt n < 2 ^ 31 := by
  have low := Int.le_bmod (x := n) (m := 2 ^ 32) (by decide)
  have high := Int.bmod_lt (x := n) (m := 2 ^ 32) (by decide)
  unfold toInt
  omega

/-- The calls of an unpack on its ProgressReportCallback. -/
inductive Report
  | fileCount (count : Int)
  | progress (filename : String) (progress : Int)
  deriving DecidableEq

namespace AssetUnzipper

abbrev ReportIo := EStateM IOException (UnzipState × List Report)

section Report

/-! `callback` says whether a callback is set. -/
variable (callback : Bool)

def publishFileCount (count : Int) : ReportIo Unit :=
  if callback then tell (.fileCount count) else pure ()

def publishProgress (filename : String) (progress : Int) : ReportIo Unit :=
  if callback then tell (.progress filename progress) else pure ()

variable (io : Schedule) (path : String)

def unzipEntriesReporting (counter : Int) : List ZipEntry → ReportIo Unit
  | [] => lift (Io.attempt io)
  | ze :: rest => do
    lift (Io.attempt io)
    publishProgress callback ze.name counter
    lift (unzipEntry io path ze)
    unzipEntriesReporting (toInt (counter + 1)) rest

variable [Device] (assets : Bundle)

def unzipArchivesReporting : List String → ReportIo Unit
  | [] => pure ()
  | assetName :: rest => do
    if isDataZip assetName then
      lift (Io.attempt io)
      -- the source has the 93 fixed
      publishFileCount callback 93
      unzipEntriesReporting callback io path 0 (assets.entries assetName)
      lift (modify (putHash assetName (getAssetHash assets assetName)))
      unzipArchivesReporting rest
    else unzipArchivesReporting rest

/-- `unzipAssets` with its calls of the callback. -/
def unzipAssetsReporting : ReportIo Unit := do
  lift (modify fun st => { st with assetHashes := [] })
  tryCatch (do
    lift (Io.attempt io)
    unzipArchivesReporting callback io path assets assets.names) fun _ => pure ()
  lift (modify storeRecord)

end Report

section Erasure

variable (callback : Bool) (io : Schedule) (path : String)

theorem erases_publishFileCount (count : Int) :
    Erases (publishFileCount callback count) (pure () : Io Unit) := by
  cases callback with
  | true => exact erases_tell _
  | false => exact erases_pure ()

theorem erases_publishProgress (filename : String) (progress : Int) :
    Erases (publishProgress callback filename progress) (pure () : Io Unit) := by
  cases callback with
  | true => exact erases_tell _
  | false => exact erases_pure ()

theorem erases_unzipEntriesReporting (counter : Int) (entries : List ZipEntry) :
    Erases (unzipEntriesReporting callback io path counter entries) (unzipEntries io path entries) := by
  induction entries generalizing counter with
  | nil => exact erases_lift _
  | cons ze entries ih =>
    apply (erases_lift _).bind
    intro _
    apply (erases_publishProgress callback _ _).told
    apply (erases_lift _).bind
    exact fun _ => ih _

variable [Device] (assets : Bundle)

theorem erases_unzipArchivesReporting (names : List String) :
    Erases (unzipArchivesReporting callback io path assets names)
      (unzipArchives io assets path names) := by
  induction names with
  | nil => exact erases_pure ()
  | cons assetName names ih =>
    unfold unzipArchivesReporting unzipArchives
    split
    next =>
      apply (erases_lift _).bind
      intro _
      apply (erases_publishFileCount callback _).told
      apply (erases_unzipEntriesReporting callback io path 0 _).bind
      intro _
      apply (erases_lift _).bind
      exact fun _ => ih
    next => exact ih

/-- The callback changes nothing of what is unpacked. -/
theorem erases_unzipAssetsReporting :
    Erases (unzipAssetsReporting callback io path assets) (unzipAssets io assets path) := by
  apply (erases_lift _).bind
  intro _
  have loops : Erases (do
      lift (Io.attempt io)
      unzipArchivesReporting callback io path assets assets.names) (unzipLoops io assets path) :=
    (erases_lift _).bind fun _ => erases_unzipArchivesReporting callback io path assets _
  apply loops.swallow.bind
  exact fun _ => erases_lift _

end Erasure

end AssetUnzipper

def Report.filename : Report → Option String
  | .fileCount _ => none
  | .progress filename _ => some filename

/-- The reports about an archive with these entries, numbered from zero. -/
def archiveReports (entries : List ZipEntry) : List Report :=
  .fileCount 93 :: entries.zipIdx.map fun numbered => .progress numbered.1.name (toInt numbered.2)

def Bundle.reports [Device] (assets : Bundle) : List Report :=
  (dataZips assets).flatMap fun assetName => archiveReports (assets.entries assetName)

/-- These entries were begun: they all lie over the tree, or all but the last, which has left
nothing or a part of its file. -/
inductive Begun (path : String) (tree : FileTree String (List UInt8)) :
    List ZipEntry → FileTree String (List UInt8) → Prop
  | whole {entries : List ZipEntry} {tree' : FileTree String (List UInt8)}
      (laid : Overlaid path entries tree tree') : Begun path tree entries tree'
  | broken {entries : List ZipEntry} {ze : ZipEntry} {mid tree' : FileTree String (List UInt8)}
      (laid : Overlaid path entries tree mid) (last : tree' = mid ∨ Torn path ze mid tree') :
      Begun path tree (entries ++ [ze]) tree'

theorem Overlaid.begun {path : String} {entries begun : List ZipEntry}
    {tree mid tree' : FileTree String (List UInt8)} (laid : Overlaid path entries tree mid)
    (later : Begun path mid begun tree') : Begun path tree (entries ++ begun) tree' := by
  cases later with
  | whole laid' => exact .whole (laid.trans laid')
  | broken laid' last =>
    rw [← List.append_assoc]
    exact .broken (laid.trans laid') last

/-- The program unpacks the entries and reports them; when it stops, exactly those that were begun
have been reported. -/
structure Reports (path : String) (entries : List ZipEntry) (all : List Report)
    (program : ReportIo Unit) : Prop where
  names : all.filterMap Report.filename = entries.map ZipEntry.name
  ok : ∀ {s s'}, program.run s = .ok () s' →
    s'.2 = s.2 ++ all ∧ Overlaid path entries s.1.tree s'.1.tree
  error : ∀ {s e s'}, program.run s = .error e s' → ∃ begun reports, s'.2 = s.2 ++ reports ∧
    reports <+: all ∧ begun <+: entries ∧
    reports.filterMap Report.filename = begun.map ZipEntry.name ∧
    Begun path s.1.tree begun s'.1.tree

namespace Reports

variable {path : String} {entries : List ZipEntry} {all : List Report} {program : ReportIo Unit}

theorem bind {entries' : List ZipEntry} {all' : List Report} {next : ReportIo Unit}
    (first : Reports path entries all program) (second : Reports path entries' all' next) :
    Reports path (entries ++ entries') (all ++ all') (do program; next) := by
  constructor
  · rw [List.filterMap_append, List.map_append, first.names, second.names]
  · intro s s'' h
    obtain ⟨_, s', here, rest⟩ := bind_ok h
    obtain ⟨said, laid⟩ := first.ok here
    obtain ⟨said', laid'⟩ := second.ok rest
    exact ⟨by rw [said', said, List.append_assoc], laid.trans laid'⟩
  · intro s e s'' h
    rcases bind_error h with here | ⟨_, s', here, rest⟩
    · obtain ⟨begun, reports, said, upTo, upTo', names, tree⟩ := first.error here
      exact ⟨begun, reports, said, upTo.trans (List.prefix_append _ _),
        upTo'.trans (List.prefix_append _ _), names, tree⟩
    · obtain ⟨said, laid⟩ := first.ok here
      obtain ⟨begun, reports, said', upTo, upTo', names, tree⟩ := second.error rest
      refine ⟨entries ++ begun, all ++ reports, ?_, ?_, ?_, ?_, laid.begun tree⟩
      · rw [said', said, List.append_assoc]
      · exact (List.prefix_append_right_inj _).mpr upTo
      · exact (List.prefix_append_right_inj _).mpr upTo'
      · rw [List.filterMap_append, List.map_append, first.names, names]

/-- A program that changes no file and reports nothing. -/
theorem silent {program : Io Unit} (kept : Within (fun st st' => st'.tree = st.tree) program) :
    Reports path [] [] (lift program) := by
  constructor
  · rfl
  · intro s s' h
    have same := kept s.1
    cases run : program.run s.1 with
    | ok u st =>
      rw [lift_ok run] at h
      cases h
      rw [final_of_ok run] at same
      rw [same]
      exact ⟨(List.append_nil _).symm, Overlaid.refl⟩
    | error e st =>
      rw [lift_error run] at h
      cases h
  · intro s e s' h
    have same := kept s.1
    cases run : program.run s.1 with
    | ok u st =>
      rw [lift_ok run] at h
      cases h
    | error e st =>
      rw [lift_error run] at h
      cases h
      rw [final_of_error run] at same
      refine ⟨[], [], (List.append_nil _).symm, List.prefix_rfl, List.prefix_rfl, rfl, .whole ?_⟩
      rw [same]
      exact Overlaid.refl

theorem fileCount (count : Int) : Reports path [] [.fileCount count] (publishFileCount true count) := by
  constructor
  · rfl
  · intro s s' h
    cases h
    exact ⟨rfl, Overlaid.refl⟩
  · intro s e s' h
    cases h

/-- An entry is reported before anything is done about it. -/
theorem entry (io : Schedule) (ze : ZipEntry) (progress : Int) (rest : Reports path entries all program) :
    Reports path (ze :: entries) (.progress ze.name progress :: all) (do
      publishProgress true ze.name progress
      lift (unzipEntry io path ze)
      program) := by
  have told (s : UnzipState × List Report) :
      (do publishProgress true ze.name progress
          lift (unzipEntry io path ze)
          program : ReportIo Unit).run s =
        (do lift (unzipEntry io path ze)
            program : ReportIo Unit).run (s.1, s.2 ++ [.progress ze.name progress]) := rfl
  constructor
  · simp [Report.filename, rest.names]
  · intro s s'' h
    rw [told] at h
    obtain ⟨_, s', here, later⟩ := bind_ok h
    obtain ⟨said, laid⟩ := rest.ok later
    cases run : (unzipEntry io path ze).run (s.1, s.2 ++ [Report.progress ze.name progress]).1 with
    | ok u st =>
      rw [lift_ok run] at here
      cases here
      exact ⟨by simp [said], (unzipEntry_overlaid io run).trans laid⟩
    | error e st =>
      rw [lift_error run] at here
      cases here
  · intro s e s'' h
    rw [told] at h
    cases run : (unzipEntry io path ze).run (s.1, s.2 ++ [Report.progress ze.name progress]).1 with
    | ok u st =>
      rw [EStateM.run_bind, lift_ok run] at h
      obtain ⟨begun, reports, said, upTo, upTo', names, tree⟩ := rest.error h
      refine ⟨ze :: begun, .progress ze.name progress :: reports, by simp [said], ?_, ?_, ?_, ?_⟩
      · exact (List.prefix_cons_inj _).mpr upTo
      · exact (List.prefix_cons_inj _).mpr upTo'
      · simp [Report.filename, names]
      · exact (unzipEntry_overlaid io run).begun tree
    | error e' st =>
      rw [EStateM.run_bind, lift_error run] at h
      cases h
      refine ⟨[ze], [.progress ze.name progress], rfl, ?_, ?_, rfl, ?_⟩
      · exact (List.prefix_cons_inj _).mpr List.nil_prefix
      · exact (List.prefix_cons_inj _).mpr List.nil_prefix
      · exact .broken Overlaid.refl (unzipEntry_torn io run)

theorem ofEntries (io : Schedule) (start : Nat) (entries : List ZipEntry) :
    Reports path entries
      ((entries.zipIdx start).map fun numbered => .progress numbered.1.name (toInt numbered.2))
      (unzipEntriesReporting true io path (toInt start) entries) := by
  have attempt : Reports path [] [] (lift (Io.attempt io)) :=
    silent fun st => by rw [final_attempt]; rfl
  induction entries generalizing start with
  | nil => exact attempt
  | cons ze entries ih =>
    have next : toInt (toInt start + 1) = toInt ((start + 1 : Nat) : Int) := by
      have cast : ((start + 1 : Nat) : Int) = start + 1 := by omega
      rw [toInt, toInt, Int.bmod_add_bmod, cast, toInt]
    have both := attempt.bind ((ih (start + 1)).entry io ze (toInt start))
    rw [← next] at both
    exact both

/-- However the program ends, what was begun is what was reported. -/
theorem begun (h : Reports path entries all program) (s : UnzipState × List Report) :
    ∃ begun reports, (final program s).2 = s.2 ++ reports ∧ reports <+: all ∧ begun <+: entries ∧
      reports.filterMap Report.filename = begun.map ZipEntry.name ∧
      Begun path s.1.tree begun (final program s).1.tree ∧ (Ends program s → begun = entries) := by
  rcases ends_or_error program s with ⟨u, s', run⟩ | ⟨e, s', run⟩
  · obtain ⟨said, laid⟩ := h.ok run
    rw [final_of_ok run]
    exact ⟨entries, all, said, List.prefix_rfl, List.prefix_rfl, h.names, .whole laid, fun _ => rfl⟩
  · obtain ⟨begun, reports, said, upTo, upTo', names, tree⟩ := h.error run
    rw [final_of_error run]
    exact ⟨begun, reports, said, upTo, upTo', names, tree, fun ends =>
      absurd ends (not_ends_of_error run)⟩

variable [Device] (io : Schedule) (path : String) (assets : Bundle)

theorem ofArchives (names : List String) :
    Reports path ((names.filter isDataZip).flatMap assets.entries)
      ((names.filter isDataZip).flatMap fun assetName => archiveReports (assets.entries assetName))
      (unzipArchivesReporting true io path assets names) := by
  have attempt : Reports path [] [] (lift (Io.attempt io)) :=
    silent fun st => by rw [final_attempt]; rfl
  induction names with
  | nil =>
    have ended : Within (fun st st' : UnzipState => st'.tree = st.tree) (pure () : Io Unit) :=
      fun _ => rfl
    exact silent ended
  | cons assetName names ih =>
    unfold unzipArchivesReporting
    by_cases zip : isDataZip assetName = true
    · rw [if_pos zip, List.filter_cons_of_pos zip, List.flatMap_cons, List.flatMap_cons]
      have close : Within (fun st st' : UnzipState => st'.tree = st.tree)
          (modify (putHash assetName (getAssetHash assets assetName)) : Io Unit) := fun _ => rfl
      have numbered := @ofEntries path io 0 (assets.entries assetName)
      rw [show toInt ((0 : Nat) : Int) = 0 by decide] at numbered
      have archive := (fileCount 93).bind (numbered.bind ((silent close).bind ih))
      have both := attempt.bind archive
      simpa only [List.nil_append, archiveReports, List.cons_append] using both
    · rw [if_neg zip, List.filter_cons_of_neg zip]
      exact ih

end Reports

/-- The dialog of an unpack, of which the first string and the number change. -/
structure ProgressDialog where
  message : String
  progress : Int
  deriving DecidableEq

structure NumberFormatException where
  deriving DecidableEq

namespace DataUnpackerTask

def onPreExecute : ProgressDialog := ⟨"<NO FILE>", 0⟩

/-- The callback of the tasks: `onSetFileCount` does nothing, `onReportProgress` hands two strings
to the UI thread. -/
def publishProgress : Report → Option (String × String)
  | .fileCount _ => none
  | .progress filename progress => some (filename, Integer.toString progress)

def onProgressUpdate (dialog : ProgressDialog) (values : String × String) :
    Except NumberFormatException ProgressDialog :=
  match Integer.parseInt values.2 with
  | some progress => .ok { dialog with message := values.1, progress }
  | none => .error ⟨⟩

/-- The dialog when the updates have all been delivered. -/
def shown (reports : List Report) : Except NumberFormatException ProgressDialog :=
  (reports.filterMap publishProgress).foldlM onProgressUpdate onPreExecute

theorem foldlM_onProgressUpdate (dialog : ProgressDialog) {reports : List Report}
    (ints : ∀ filename progress, .progress filename progress ∈ reports →
      -2 ^ 31 ≤ progress ∧ progress < 2 ^ 31) :
    ∃ progress, (reports.filterMap publishProgress).foldlM onProgressUpdate dialog =
      .ok ⟨((reports.filterMap Report.filename).getLast?).getD dialog.message, progress⟩ := by
  induction reports generalizing dialog with
  | nil => exact ⟨dialog.progress, rfl⟩
  | cons report reports ih =>
    have later := fun dialog => ih dialog fun filename progress mem =>
      ints filename progress (List.mem_cons_of_mem _ mem)
    cases report with
    | fileCount count => exact later dialog
    | progress filename progress =>
      obtain ⟨low, high⟩ := ints filename progress List.mem_cons_self
      have update : onProgressUpdate dialog (filename, Integer.toString progress) =
          .ok ⟨filename, progress⟩ := by
        simp only [onProgressUpdate, Integer.parseInt_toString low high]
      obtain ⟨last, rest⟩ := later ⟨filename, progress⟩
      refine ⟨last, ?_⟩
      rw [List.filterMap_cons_some (show publishProgress (.progress filename progress) = some _ from rfl),
        List.foldlM_cons, update, ok_bind, rest]
      simp [Report.filename, List.getLast?_cons]

variable [Device] (io : Schedule) (path : String) (assets : Bundle)

theorem reports_ints : ∀ filename progress, .progress filename progress ∈ assets.reports →
    -2 ^ 31 ≤ progress ∧ progress < 2 ^ 31 := by
  intro filename progress mem
  obtain ⟨assetName, _, mem⟩ := List.mem_flatMap.mp mem
  rcases List.mem_cons.mp mem with count | numbered
  · cases count
  · obtain ⟨numbered, _, same⟩ := List.mem_map.mp numbered
    cases same
    exact toInt_bounds _

/-- What the task has come to when it ends: some entries were begun, the dialog shows the name of
the last of them, and they are all the entries if no exception stopped it. -/
structure Shown (st : UnzipState) (begun : List ZipEntry) (dialog : ProgressDialog) : Prop where
  inOrder : begun <+: assets.allEntries
  tree : Begun path st.tree begun (final (unzipAssets io assets path) st).tree
  message : dialog.message = ((begun.map ZipEntry.name).getLast?).getD "<NO FILE>"
  complete : Ends (unzipLoops io assets path) { st with assetHashes := [] } →
    begun = assets.allEntries

theorem final_unzipAssetsReporting (callback : Bool) (s : UnzipState × List Report) :
    final (unzipAssetsReporting callback io path assets) s =
      let loops := do
        lift (Io.attempt io)
        unzipArchivesReporting callback io path assets assets.names
      let ended := final loops ({ s.1 with assetHashes := [] }, s.2)
      (storeRecord ended.1, ended.2) := by
  have first : (lift (modify fun st => { st with assetHashes := [] }) : ReportIo Unit).run s =
      .ok () ({ s.1 with assetHashes := [] }, s.2) := rfl
  rw [unzipAssetsReporting, final_bind_of_ok first, final_bind_of_ok (run_swallow _ _)]
  rfl

/-- However the unpack ends, all its updates can be shown, and the last one that is names the
last entry that was begun. -/
theorem shown_last (st : UnzipState) :
    ∃ begun dialog,
      shown (final (unzipAssetsReporting true io path assets) (st, [])).2 = .ok dialog ∧
        Shown io path assets st begun dialog := by
  have attempt : Reports path [] [] (lift (Io.attempt io)) :=
    .silent fun st => by rw [final_attempt]; rfl
  have loops := attempt.bind (Reports.ofArchives io path assets assets.names)
  obtain ⟨begun, reports, said, upTo, upTo', names, tree, ended⟩ :=
    loops.begun ({ st with assetHashes := [] }, [])
  have erased := (erases_unzipAssetsReporting true io path assets).final (st, [])
  have silent : Erases (do
      lift (Io.attempt io)
      unzipArchivesReporting true io path assets assets.names) (unzipLoops io assets path) :=
    (erases_lift _).bind fun _ => erases_unzipArchivesReporting true io path assets _
  rw [final_unzipAssetsReporting] at erased ⊢
  simp only at erased ⊢
  rw [said, List.nil_append]
  obtain ⟨progress, delivered⟩ := foldlM_onProgressUpdate onPreExecute fun filename progress mem =>
    reports_ints assets filename progress (upTo.subset mem)
  refine ⟨begun, _, delivered, upTo', ?_, ?_, ?_⟩
  · rw [← erased]
    exact tree
  · rw [names]
    rfl
  · exact fun ends => ended ((silent.ends_iff _).mpr ends)

end DataUnpackerTask

end OpenApocLauncher
