import OpenApocLauncher.UnpackEffects

namespace OpenApocLauncher

open AssetUnzipper Effects

def SameRecords (st st' : UnzipState) : Prop :=
  st'.mPrefs = st.mPrefs ∧ st'.assetHashes = st.assetHashes

instance : IsTrans UnzipState SameRecords :=
  ⟨fun _ _ _ first second => ⟨second.1.trans first.1, second.2.trans first.2⟩⟩

section Entries

variable (io : Schedule) (assets : Bundle) (path : String)

theorem attempt_sameRecords : Within SameRecords (Io.attempt io) := by
  intro st
  rw [final_attempt]
  exact ⟨rfl, rfl⟩

theorem unzipEntry_sameRecords (ze : ZipEntry) : Within SameRecords (unzipEntry io path ze) := by
  intro st
  cases h : ze.isDirectory with
  | true =>
    have made := unzipEntry_directory_makes io path h st
    exact ⟨made.mPrefs, made.assetHashes⟩
  | false =>
    have changed := unzipEntry_file_changes io path h st
    exact ⟨changed.mPrefs, changed.assetHashes⟩

theorem performAll_entries_sameRecords (entries : List ZipEntry) :
    Within SameRecords (performAll io assets path (entries.map .entry)) := by
  induction entries with
  | nil => exact fun st => ⟨rfl, rfl⟩
  | cons ze entries ih =>
    have step : Within SameRecords ((Work.entry ze).perform io assets path) := by
      apply Within.bind (attempt_sameRecords io)
      intro _
      exact unzipEntry_sameRecords io path ze
    apply Within.bind step
    intro _
    exact ih

theorem assetWork_body_sameRecords (assetName : String) :
    Within SameRecords
      (performAll io assets path (.openAsset assetName :: (assets.entries assetName).map .entry)) := by
  apply Within.bind (attempt_sameRecords io)
  intro _
  exact performAll_entries_sameRecords io assets path _

theorem closeAsset_ok {assetName : String} {st st' : UnzipState} {u : Unit}
    (h : (performAll io assets path [.closeAsset assetName]).run st = .ok u st') :
    st' = putHash assetName (getAssetHash assets assetName) st.advance := by
  obtain ⟨_, st₁, hp, h⟩ := bind_ok h
  obtain ⟨_, st₂, ha, hp⟩ := bind_ok hp
  obtain ⟨_, rfl⟩ := attempt_ok io ha
  cases hp
  cases h
  rfl

theorem closeAsset_error {assetName : String} {st st' : UnzipState} {e : IOException}
    (h : (performAll io assets path [.closeAsset assetName]).run st = .error e st') :
    SameRecords st st' := by
  rcases bind_error h with hp | ⟨_, st₁, _, h⟩
  · rcases bind_error hp with ha | ⟨_, st₁, _, hm⟩
    · have kept := attempt_sameRecords io st
      rwa [final_of_error ha] at kept
    · cases hm
  · cases h

theorem assetWork_run (assetName : String) (st : UnzipState) :
    (performAll io assets path (assetWork assets assetName)).run st =
      (do performAll io assets path (.openAsset assetName :: (assets.entries assetName).map .entry)
          performAll io assets path [.closeAsset assetName]).run st := by
  rw [assetWork, ← List.cons_append, performAll_append]

theorem assetWork_ok {assetName : String} {st st' : UnzipState} {u : Unit}
    (h : (performAll io assets path (assetWork assets assetName)).run st = .ok u st') :
    st'.mPrefs = st.mPrefs ∧
      st'.assetHashes = (putHash assetName (getAssetHash assets assetName) st).assetHashes := by
  rw [assetWork_run] at h
  obtain ⟨_, st₁, hb, hc⟩ := bind_ok h
  have body := assetWork_body_sameRecords io assets path assetName st
  rw [final_of_ok hb] at body
  rw [closeAsset_ok io assets path hc]
  refine ⟨body.1, ?_⟩
  simp only [putHash, UnzipState.advance, body.2]

theorem assetWork_error {assetName : String} {st st' : UnzipState} {e : IOException}
    (h : (performAll io assets path (assetWork assets assetName)).run st = .error e st') :
    SameRecords st st' := by
  rw [assetWork_run] at h
  have body := assetWork_body_sameRecords io assets path assetName st
  rcases bind_error h with hb | ⟨_, st₁, hb, hc⟩
  · rwa [final_of_error hb] at body
  · rw [final_of_ok hb] at body
    have last := closeAsset_error io assets path hc
    exact ⟨last.1.trans body.1, last.2.trans body.2⟩

def hashesOf (done : List String) : List (String × String) :=
  done.map fun assetName => (assetName, getAssetHash assets assetName)

theorem archives_ok {names : List String} {st st' : UnzipState} {u : Unit}
    (distinct : names.Nodup) (new : ∀ known ∈ st.assetHashes, known.1 ∉ names)
    (h : (performAll io assets path (names.flatMap (assetWork assets))).run st = .ok u st') :
    st'.mPrefs = st.mPrefs ∧ st'.assetHashes = st.assetHashes ++ hashesOf assets names := by
  induction names generalizing st with
  | nil =>
    cases h
    exact ⟨rfl, by simp [hashesOf]⟩
  | cons assetName names ih =>
    rw [List.flatMap_cons, performAll_append] at h
    obtain ⟨_, st₁, first, rest⟩ := bind_ok h
    obtain ⟨hprefs, hhashes⟩ := assetWork_ok io assets path first
    have absent : ∀ known ∈ st.assetHashes, known.1 ≠ assetName :=
      fun known mem same => new known mem (by simp [same])
    have added : st₁.assetHashes =
        st.assetHashes ++ [(assetName, getAssetHash assets assetName)] := by
      rw [hhashes, putHash, List.filter_eq_self.mpr]
      intro known mem
      simpa using absent known mem
    have hd := List.nodup_cons.mp distinct
    have new' : ∀ known ∈ st₁.assetHashes, known.1 ∉ names := by
      intro known mem
      rw [added] at mem
      rcases List.mem_append.mp mem with old | last
      · exact fun later => new known old (List.mem_cons_of_mem _ later)
      · obtain rfl := List.mem_singleton.mp last
        exact hd.1
    obtain ⟨hprefs', hhashes'⟩ := ih hd.2 new' rest
    refine ⟨hprefs'.trans hprefs, ?_⟩
    rw [hhashes', added, List.append_assoc]
    rfl

def programUpTo (done : List String) : List Work := .list :: done.flatMap (assetWork assets)

theorem programUpTo_append (done more : List String) :
    programUpTo assets (done ++ more) =
      programUpTo assets done ++ more.flatMap (assetWork assets) := by
  rw [programUpTo, List.flatMap_append, ← List.cons_append, ← programUpTo]

theorem programUpTo_ok {done : List String} (distinct : done.Nodup) {st st' : UnzipState} {u : Unit}
    (start : st.assetHashes = [])
    (h : (performAll io assets path (programUpTo assets done)).run st = .ok u st') :
    st'.mPrefs = st.mPrefs ∧ st'.assetHashes = hashesOf assets done := by
  obtain ⟨_, st₁, hl, h⟩ := bind_ok h
  obtain ⟨_, rfl⟩ := attempt_ok io hl
  have none : ∀ known ∈ st.advance.assetHashes, known.1 ∉ done := by
    simp [UnzipState.advance, start]
  have added := archives_ok io assets path distinct none h
  simpa [UnzipState.advance, start] using added

theorem performAll_append_error {first : List Work} (second : List Work) {st st' : UnzipState}
    {e : IOException} (h : (performAll io assets path first).run st = .error e st') :
    (performAll io assets path (first ++ second)).run st = .error e st' := by
  rw [performAll_append, EStateM.run_bind, h]

end Entries

section Record

variable [Device] (io : Schedule) (assets : Bundle) (path : String)

/-- The unpack finished exactly these archives: all of them, or those before the archive in
which (or before which) it stopped. -/
inductive StopsAfter (st : UnzipState) (done : List String) : Prop
  | complete (all : done = dataZips assets)
      (ends : Ends (performAll io assets path (programUpTo assets done)) st)
  | listing (none : done = []) (stops : ¬Ends (performAll io assets path [.list]) st)
  | within (next : String) (rest : List String) (split : dataZips assets = done ++ next :: rest)
      (ends : Ends (performAll io assets path (programUpTo assets done)) st)
      (stops : ¬Ends (performAll io assets path (programUpTo assets (done ++ [next]))) st)

theorem StopsAfter.isPrefix {st : UnzipState} {done : List String}
    (h : StopsAfter io assets path st done) : done <+: dataZips assets := by
  cases h with
  | complete all => exact all ▸ List.prefix_refl _
  | listing none => exact none ▸ List.nil_prefix
  | within next rest split => exact ⟨next :: rest, split.symm⟩

theorem dataZips_nodup : (dataZips assets).Nodup := assets.nodup.filter _

theorem unpackProgram_eq : unpackProgram assets = programUpTo assets (dataZips assets) := rfl

theorem StopsAfter.final_hashes {st : UnzipState} {done : List String}
    (h : StopsAfter io assets path st done) (start : st.assetHashes = []) :
    let last := final (performAll io assets path (unpackProgram assets)) st
    last.mPrefs = st.mPrefs ∧ last.assetHashes = hashesOf assets done := by
  have distinct := (dataZips_nodup assets).sublist h.isPrefix.sublist
  cases h with
  | complete all ends =>
    obtain ⟨_, st', ok⟩ := ends
    rw [unpackProgram_eq, ← all, final_of_ok ok]
    exact programUpTo_ok io assets path distinct start ok
  | listing none stops =>
    obtain ⟨e, st', raised⟩ := (ends_or_error _ st).resolve_left stops
    have whole := performAll_append_error io assets path
      ((dataZips assets).flatMap (assetWork assets)) raised
    have kept : SameRecords st (final (Work.list.perform io assets path) st) :=
      attempt_sameRecords io st
    rcases bind_error raised with ha | ⟨_, st₁, _, hn⟩
    · rw [final_of_error ha] at kept
      rw [show unpackProgram assets =
        [.list] ++ (dataZips assets).flatMap (assetWork assets) from rfl, final_of_error whole, none]
      exact ⟨kept.1, by simp [kept.2, start, hashesOf]⟩
    · cases hn
  | within next rest split ends stops =>
    obtain ⟨_, st₁, ok⟩ := ends
    obtain ⟨e, st', raised⟩ := (ends_or_error _ st).resolve_left stops
    have whole := performAll_append_error io assets path (rest.flatMap (assetWork assets)) raised
    rw [← programUpTo_append, List.append_assoc, List.singleton_append, ← split] at whole
    rw [unpackProgram_eq, final_of_error whole]
    obtain ⟨hprefs, hhashes⟩ := programUpTo_ok io assets path distinct start ok
    rw [programUpTo_append, List.flatMap_singleton, performAll_append, EStateM.run_bind, ok] at raised
    have last := assetWork_error io assets path raised
    exact ⟨last.1.trans hprefs, last.2.trans hhashes⟩

/-- Every unpack stops somewhere: after a first part of the archives, which is all of them
when nothing raises. -/
theorem stopsAfter_exists (st : UnzipState) : ∃ done, StopsAfter io assets path st done := by
  by_cases listed : Ends (performAll io assets path (programUpTo assets [])) st
  · suffices h : ∀ done rest, dataZips assets = done ++ rest →
        Ends (performAll io assets path (programUpTo assets done)) st →
        ∃ done, StopsAfter io assets path st done from h [] _ rfl listed
    intro done rest
    -- each round either finishes the next archive or stops in it
    induction rest generalizing done with
    | nil =>
      intro split ends
      exact ⟨done, .complete (by simp [split]) ends⟩
    | cons next rest ih =>
      intro split ends
      by_cases more : Ends (performAll io assets path (programUpTo assets (done ++ [next]))) st
      · exact ih (done ++ [next]) (by simp [split]) more
      · exact ⟨done, .within next rest split ends more⟩
  · exact ⟨[], .listing rfl listed⟩

/-- The record `unzipAssets` stores is the one of the archives it finished. -/
theorem unzipAssets_record {st : UnzipState} {done : List String}
    (h : StopsAfter io assets path { st with assetHashes := [] } done) :
    (final (unzipAssets io assets path) st).mPrefs =
      Config.setOptionSet st.mPrefs .androidDataHash (assetHashSet (hashesOf assets done)) := by
  obtain ⟨hprefs, hhashes⟩ := h.final_hashes io assets path rfl
  rw [final_of_ok (unzipAssets_run io assets path st), storeRecord, hprefs, hhashes]

end Record

end OpenApocLauncher
