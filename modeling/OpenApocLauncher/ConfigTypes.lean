import OpenApocLauncher.Config
import OpenApocLauncher.Machine

namespace OpenApocLauncher

section Types

variable [Device]

def OpenApocActivity.getArguments (mPrefs : Preferences) (extractionRun : Bool) :
    Except ClassCastException (List String) :=
  let argsList := (if extractionRun then ["--extract-data"] else []) ++ ["--enable-tracing"]
  ConfigOption.values.foldlM (fun argsList option =>
    if option.isPassed then do
      let value ← Config.getOption mPrefs option
      pure (argsList ++ [option.key ++ "=" ++ value])
    else pure argsList) argsList

/-- The writes of the program: strings under any option but the archive record,
string sets under the archive record, and the two loops over all options. -/
inductive ConfigWrite
  | setOption (option : ConfigOption) (ordinary : option ≠ .androidDataHash) (value : String)
  | setDataHash (values : Finset String)
  | setDefaults
  | save

namespace ConfigWrite

def perform (mPrefs : Preferences) : ConfigWrite → Preferences
  | setOption option _ value => Config.setOption mPrefs option value
  | setDataHash values => Config.setOptionSet mPrefs .androidDataHash values
  | setDefaults => Config.setDefaults mPrefs
  | save => Config.save mPrefs

def history (writes : List ConfigWrite) : Preferences :=
  Machine.run perform Preferences.empty writes

def written (option : ConfigOption) : ConfigWrite → Option String
  | setOption target _ value => if target = option then some value else none
  | setDataHash _ => none
  | setDefaults => some option.value
  | save => none

end ConfigWrite

namespace ConfigWrite

theorem history_concat (writes : List ConfigWrite) (write : ConfigWrite) :
    history (writes ++ [write]) = perform (history writes) write :=
  Machine.run_concat perform _ writes write

theorem perform_value (mPrefs : Preferences) (write : ConfigWrite) {option : ConfigOption}
    (ordinary : option ≠ .androidDataHash) :
    (perform mPrefs write).value option.key =
      ((write.written option).map .string).or (mPrefs.value option.key) := by
  cases write with
  | setOption target _ value =>
    by_cases same : target = option
    · subst same
      simp [perform, written]
    · simpa [perform, written, same] using
        Config.setOption_value_other mPrefs value (Ne.symm same)
  | setDataHash values =>
    simpa [perform, written] using Config.setOptionSet_value_other mPrefs values ordinary
  | setDefaults => simp [perform, written, Config.setDefaults_value]
  | save => simp [perform, written, Config.save]

theorem history_value (writes : List ConfigWrite) {option : ConfigOption}
    (ordinary : option ≠ .androidDataHash) :
    (history writes).value option.key =
      (writes.reverse.findSome? (written option)).map .string := by
  induction writes using List.reverseRecOn with
  | nil => rfl
  | append_singleton writes write ih =>
    rw [history_concat, perform_value _ _ ordinary, ih, List.reverse_concat, List.findSome?_cons]
    cases write.written option <;> rfl

theorem history_dataHash_value {writes : List ConfigWrite} (h : setDefaults ∉ writes) :
    (history writes).value ConfigOption.androidDataHash.key = none ∨
      ∃ values, (history writes).value ConfigOption.androidDataHash.key =
        some (.stringSet values) := by
  induction writes using List.reverseRecOn with
  | nil => exact Or.inl rfl
  | append_singleton writes write ih =>
    have before := ih (fun mem => h (List.mem_append_left _ mem))
    rw [history_concat]
    cases write with
    | setOption target ordinary value =>
      simpa only [perform, Config.setOption_value_other _ value ordinary.symm] using before
    | setDataHash values => exact Or.inr ⟨values, Config.setOptionSet_value_self _ _ values⟩
    | setDefaults => simp at h
    | save => exact before

end ConfigWrite

def NoTypeError {α : Type} (read : Except ClassCastException α) : Prop :=
  ∃ result, read = .ok result

omit [Device] in
theorem getString_noTypeError {mPrefs : Preferences} {key : String} {stored : Option String}
    (h : mPrefs.value key = stored.map .string) (default : String) :
    NoTypeError (mPrefs.getString key default) := by
  cases stored with
  | none => exact ⟨default, by simp [Preferences.getString, h]⟩
  | some value => exact ⟨value, by simp [Preferences.getString, h]⟩

omit [Device] in
theorem foldlM_noTypeError {α β : Type} {round : β → α → Except ClassCastException β}
    (h : ∀ acc item, NoTypeError (round acc item)) (items : List α) (acc : β) :
    NoTypeError (items.foldlM round acc) := by
  induction items generalizing acc with
  | nil => exact ⟨acc, rfl⟩
  | cons item items ih =>
    obtain ⟨next, hn⟩ := h acc item
    obtain ⟨result, hr⟩ := ih next
    refine ⟨result, ?_⟩
    rw [List.foldlM_cons, hn]
    exact hr

/-- Every reader of the preferences finds nothing or a value of the type it asks for. -/
structure ReadsTyped (mPrefs : Preferences) : Prop where
  getOption : ∀ option ≠ .androidDataHash, NoTypeError (Config.getOption mPrefs option)
  getOptionSet : NoTypeError (Config.getOptionSet mPrefs .androidDataHash)
  getLanguage : NoTypeError (Config.getLanguage mPrefs)
  getGamerules : NoTypeError (Config.getGamerules mPrefs)
  getLocalDataDir : NoTypeError (Config.getLocalDataDir mPrefs)
  getSystemDataDir : NoTypeError (Config.getSystemDataDir mPrefs)
  getLocalCdPath : NoTypeError (Config.getLocalCdPath mPrefs)
  getSystemCdPath : NoTypeError (Config.getSystemCdPath mPrefs)
  getRenderers : NoTypeError (Config.getRenderers mPrefs)
  getAudioBackends : NoTypeError (Config.getAudioBackends mPrefs)
  getThreadpoolSize : NoTypeError (Config.getThreadpoolSize mPrefs)
  getArguments : ∀ extractionRun,
    NoTypeError (OpenApocActivity.getArguments mPrefs extractionRun)

namespace ConfigWrite

theorem history_getString (writes : List ConfigWrite) {option : ConfigOption}
    (ordinary : option ≠ .androidDataHash) (default : String) :
    NoTypeError ((history writes).getString option.key default) :=
  getString_noTypeError (history_value writes ordinary) default

theorem history_getArguments (writes : List ConfigWrite) (extractionRun : Bool) :
    NoTypeError (OpenApocActivity.getArguments (history writes) extractionRun) := by
  apply foldlM_noTypeError
  intro argsList option
  split
  next passed =>
    have ordinary : option ≠ .androidDataHash := by
      intro same
      subst same
      simp [ConfigOption.isPassed, ConfigOption.args] at passed
    obtain ⟨value, hv⟩ := history_getString writes ordinary option.value
    exact ⟨_, by rw [Config.getOption, hv]; rfl⟩
  next => exact ⟨argsList, rfl⟩

theorem history_getOptionSet {writes : List ConfigWrite} (h : setDefaults ∉ writes) :
    NoTypeError (Config.getOptionSet (history writes) .androidDataHash) := by
  rcases history_dataHash_value h with absent | ⟨values, stored⟩
  · exact ⟨∅, by simp [Config.getOptionSet, Preferences.getStringSet, absent]⟩
  · exact ⟨values, by simp [Config.getOptionSet, Preferences.getStringSet, stored]⟩

/-- The thread pool size is read as an int but only ever stored as a string. -/
theorem history_getThreadpoolSize (writes : List ConfigWrite) :
    NoTypeError (Config.getThreadpoolSize (history writes)) ↔
      ∀ write ∈ writes, write.written .frameworkThreadpoolSize = none := by
  have stored : (history writes).value ConfigOption.frameworkThreadpoolSize.key =
      (writes.reverse.findSome? (written .frameworkThreadpoolSize)).map .string :=
    history_value writes (by decide)
  cases found : writes.reverse.findSome? (written .frameworkThreadpoolSize) with
  | none =>
    rw [found] at stored
    constructor
    · intro _ write mem
      exact List.findSome?_eq_none_iff.mp found write (List.mem_reverse.mpr mem)
    · intro _
      exact ⟨_, by rw [Config.getThreadpoolSize, Preferences.getInt, stored]; rfl⟩
  | some value =>
    rw [found] at stored
    constructor
    · rintro ⟨result, hr⟩
      simp [Config.getThreadpoolSize, Preferences.getInt, stored] at hr
    · intro untouched
      obtain ⟨write, mem, hw⟩ := List.exists_of_findSome?_eq_some found
      simp [untouched write (List.mem_reverse.mp mem)] at hw

/-- The preferences keep their types exactly in the histories that neither restore the
defaults nor store the thread pool size. -/
theorem history_readsTyped_iff (writes : List ConfigWrite) :
    ReadsTyped (history writes) ↔
      setDefaults ∉ writes ∧
        ∀ ordinary value, setOption .frameworkThreadpoolSize ordinary value ∉ writes := by
  constructor
  · intro typed
    have untouched := (history_getThreadpoolSize writes).mp typed.getThreadpoolSize
    constructor
    · intro mem
      simpa [written] using untouched _ mem
    · intro ordinary value mem
      simpa [written] using untouched _ mem
  · rintro ⟨noDefaults, noThreadpool⟩
    have strings : ∀ {option}, option ≠ ConfigOption.androidDataHash → ∀ default,
        NoTypeError ((history writes).getString option.key default) :=
      fun ordinary default => history_getString writes ordinary default
    refine ⟨fun option ordinary => strings ordinary _, history_getOptionSet noDefaults,
      strings (by decide) _, strings (by decide) _, strings (by decide) _, strings (by decide) _,
      strings (by decide) _, strings (by decide) _, strings (by decide) _, strings (by decide) _,
      ?_, history_getArguments writes⟩
    apply (history_getThreadpoolSize writes).mpr
    intro write mem
    cases write with
    | setOption target ordinary value =>
      have other : target ≠ .frameworkThreadpoolSize := by
        rintro rfl
        exact noThreadpool ordinary value mem
      simp [written, other]
    | setDefaults => exact absurd mem noDefaults
    | setDataHash _ => rfl
    | save => rfl

end ConfigWrite

end Types

section Concrete

attribute [local instance] emulator

/-- Restoring the defaults stores a string where the archive record is read. -/
theorem not_readsTyped_setDefaults : ¬ReadsTyped (ConfigWrite.history [.setDefaults]) := by
  intro typed
  obtain ⟨lines, read⟩ := typed.getOptionSet
  have raised : Config.getOptionSet (ConfigWrite.history [.setDefaults]) .androidDataHash =
      .error ⟨"Android.DataHash"⟩ := by decide +kernel
  rw [raised] at read
  cases read

end Concrete

end OpenApocLauncher
