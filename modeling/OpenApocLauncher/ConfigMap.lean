import OpenApocLauncher.ConfigTypes

namespace OpenApocLauncher

open ConfigWrite

/-- What the configuration is for: a value for each option. -/
abbrev OptionMap := ConfigOption → String

section Map

variable [Device]

namespace OptionMap

def defaults : OptionMap := ConfigOption.value

def perform (map : OptionMap) : ConfigWrite → OptionMap
  | .setOption option _ value => Function.update map option value
  | .setDataHash _ => map
  | .setDefaults => defaults
  | .save => map

def after (writes : List ConfigWrite) : OptionMap := Machine.run perform defaults writes

theorem perform_apply (map : OptionMap) (write : ConfigWrite) (option : ConfigOption) :
    perform map write option = (write.written option).getD (map option) := by
  cases write with
  | setOption target _ value =>
    by_cases same : target = option
    · subst same
      simp [perform, written]
    · simp [perform, written, same, Ne.symm same]
  | setDataHash values => rfl
  | setDefaults => rfl
  | save => rfl

/-- The map holds the last string written, or the declared default. -/
theorem after_apply (writes : List ConfigWrite) (option : ConfigOption) :
    after writes option = (writes.reverse.findSome? (written option)).getD option.value := by
  induction writes using List.reverseRecOn with
  | nil => rfl
  | append_singleton writes write ih =>
    have last : after (writes ++ [write]) = perform (after writes) write :=
      Machine.run_concat perform _ writes write
    rw [last, perform_apply, ih, List.reverse_concat, List.findSome?_cons]
    cases write.written option <;> rfl

end OptionMap

/-- The string accessor named after an option. -/
def Config.accessor : ConfigOption → Option (Preferences → Except ClassCastException String)
  | .language => some Config.getLanguage
  | .gamerules => some Config.getGamerules
  | .resLocalDataDir => some Config.getLocalDataDir
  | .resSystemDataDir => some Config.getSystemDataDir
  | .resLocalCdPath => some Config.getLocalCdPath
  | .resSystemCdPath => some Config.getSystemCdPath
  | .visualRenderers => some Config.getRenderers
  | .audioBackends => some Config.getAudioBackends
  | _ => none

/-- The default with which an option's accessor reads. -/
def Config.accessorDefault (option : ConfigOption) : String :=
  if option = .audioBackends then ConfigOption.visualRenderers.value else option.value

variable {option : ConfigOption} {read : Preferences → Except ClassCastException String}

theorem Config.accessor_getString (h : Config.accessor option = some read) (mPrefs : Preferences) :
    read mPrefs = mPrefs.getString option.key (Config.accessorDefault option) := by
  cases option <;> cases h <;> rfl

theorem Config.accessor_ordinary (h : Config.accessor option = some read) :
    option ≠ .androidDataHash := by
  intro same
  subst same
  simp [Config.accessor] at h

namespace ConfigWrite

theorem history_getString_eq (writes : List ConfigWrite) (ordinary : option ≠ .androidDataHash)
    (default : String) :
    (history writes).getString option.key default =
      .ok ((writes.reverse.findSome? (written option)).getD default) := by
  have stored := history_value writes ordinary
  cases found : writes.reverse.findSome? (written option) with
  | none => simp [Preferences.getString, stored, found]
  | some value => simp [Preferences.getString, stored, found]

theorem history_getOption (writes : List ConfigWrite) (ordinary : option ≠ .androidDataHash) :
    Config.getOption (history writes) option = .ok (OptionMap.after writes option) := by
  rw [Config.getOption, history_getString_eq writes ordinary, OptionMap.after_apply]

theorem history_accessor (writes : List ConfigWrite) (h : Config.accessor option = some read) :
    read (history writes) =
      .ok ((writes.reverse.findSome? (written option)).getD (Config.accessorDefault option)) := by
  rw [Config.accessor_getString h]
  exact history_getString_eq writes (Config.accessor_ordinary h) _

theorem history_setOption_other (writes : List ConfigWrite) {target : ConfigOption}
    (ordinary : target ≠ .androidDataHash) (value : String) (other : option ≠ target)
    (default : String) :
    (history (writes ++ [setOption target ordinary value])).getString option.key default =
      (history writes).getString option.key default := by
  have kept := Config.setOption_value_other (history writes) value other
  rw [history_concat]
  simp only [Preferences.getString, perform, kept]

/-- The two readers of each option agree with the map, a write to one option changes the readers
of no other, and `save` changes none. -/
structure RefinesMap (writes : List ConfigWrite) : Prop where
  readers : ∀ option read, Config.accessor option = some read →
    Config.getOption (history writes) option = .ok (OptionMap.after writes option) ∧
      read (history writes) = .ok (OptionMap.after writes option)
  others : ∀ target ordinary value option read, Config.accessor option = some read →
    option ≠ target →
      Config.getOption (history (writes ++ [setOption target ordinary value])) option =
          Config.getOption (history writes) option ∧
        read (history (writes ++ [setOption target ordinary value])) = read (history writes)
  save : ∀ option read, Config.accessor option = some read →
    Config.getOption (history (writes ++ [save])) option = Config.getOption (history writes) option ∧
      read (history (writes ++ [save])) = read (history writes)

/-- The writes that store an option are `setDefaults` and its own `setOption`. -/
theorem findSome?_written_ne_none (writes : List ConfigWrite) (option : ConfigOption) :
    writes.reverse.findSome? (written option) ≠ none ↔
      setDefaults ∈ writes ∨ ∃ ordinary value, setOption option ordinary value ∈ writes := by
  refine ⟨?_, ?_⟩
  · intro stored
    obtain ⟨value, found⟩ := Option.ne_none_iff_exists'.mp stored
    obtain ⟨write, mem, stores⟩ := List.exists_of_findSome?_eq_some found
    have inside := List.mem_reverse.mp mem
    cases write with
    | setOption target ordinary text =>
      by_cases same : target = option
      · subst same
        exact Or.inr ⟨ordinary, text, inside⟩
      · simp [written, same] at stores
    | setDataHash values => simp [written] at stores
    | setDefaults => exact Or.inl inside
    | save => simp [written] at stores
  · intro stored none
    have untouched := List.findSome?_eq_none_iff.mp none
    rcases stored with restored | ⟨ordinary, value, mem⟩
    · have absent := untouched _ (List.mem_reverse.mpr restored)
      simp [written] at absent
    · have absent := untouched _ (List.mem_reverse.mpr mem)
      simp [written] at absent

/-- An option's accessor answers like the map unless it has another default and nothing is
stored. -/
theorem history_accessor_eq_map_iff (writes : List ConfigWrite)
    (h : Config.accessor option = some read) :
    read (history writes) = .ok (OptionMap.after writes option) ↔
      writes.reverse.findSome? (written option) ≠ none ∨
        Config.accessorDefault option = option.value := by
  rw [history_accessor writes h, OptionMap.after_apply]
  cases writes.reverse.findSome? (written option) with
  | none => simp
  | some value => simp

theorem accessorDefault_eq_value_iff (option : ConfigOption) :
    Config.accessorDefault option = option.value ↔ option ≠ .audioBackends := by
  refine ⟨?_, fun other => if_neg other⟩
  intro same audio
  subst audio
  have texts : "GLES_3_0:GLES_2_0" = "SDLRaw:allegro:null" := same
  exact absurd texts (by decide)

/-- The configuration refines the map exactly in the histories that have stored the audio
backends: until then their accessor answers the default of the renderers. -/
theorem history_refinesMap_iff (writes : List ConfigWrite) :
    RefinesMap writes ↔
      setDefaults ∈ writes ∨ ∃ ordinary value, setOption .audioBackends ordinary value ∈ writes := by
  rw [← findSome?_written_ne_none]
  refine ⟨?_, ?_⟩
  · intro refines
    have own := (refines.readers .audioBackends Config.getAudioBackends rfl).2
    have answers := (history_accessor_eq_map_iff writes
      (show Config.accessor .audioBackends = some Config.getAudioBackends from rfl)).mp own
    exact answers.resolve_right fun same => (accessorDefault_eq_value_iff _).mp same rfl
  · intro stored
    refine ⟨?_, ?_, ?_⟩
    · intro option read h
      refine ⟨history_getOption writes (Config.accessor_ordinary h), ?_⟩
      rw [history_accessor_eq_map_iff writes h, accessorDefault_eq_value_iff]
      by_cases audio : option = .audioBackends
      · exact Or.inl (audio ▸ stored)
      · exact Or.inr audio
    · intro target ordinary value option read h other
      have kept := history_setOption_other writes ordinary value other
      rw [Config.accessor_getString h, Config.accessor_getString h]
      exact ⟨kept _, kept _⟩
    · intro option read h
      have same : history (writes ++ [save]) = history writes := history_concat writes save
      rw [same]
      exact ⟨rfl, rfl⟩

end ConfigWrite

end Map

section Concrete

attribute [local instance] emulator

/-- Nothing was ever stored: the accessor of the audio backends answers the renderers. -/
theorem not_refinesMap_fresh : ¬RefinesMap [] := by
  intro refines
  have own := (refines.readers .audioBackends Config.getAudioBackends rfl).2
  exact absurd own (by decide +kernel)

end Concrete

end OpenApocLauncher
