import OpenApocLauncher.ConfigMap
import OpenApocLauncher.Text

namespace OpenApocLauncher

namespace OpenApocActivity

def flags (extractionRun : Bool) : List String :=
  (if extractionRun then ["--extract-data"] else []) ++ ["--enable-tracing"]

def passedOptions : List ConfigOption := ConfigOption.values.filter ConfigOption.isPassed

def argument (map : OptionMap) (option : ConfigOption) : String := option.key ++ "=" ++ map option

/-- What an argument says about an option; a flag says nothing. -/
def readArgument (arg : String) : Option (String × String) := Text.splitFirst '=' arg

theorem readArgument_argument (map : OptionMap) (option : ConfigOption) :
    readArgument (argument map option) = some (option.key, map option) := by
  have plain : '=' ∉ option.key.toList := by
    cases option <;> decide
  exact Text.splitFirst_join plain (map option)

theorem readArgument_flags {extractionRun : Bool} {arg : String} (mem : arg ∈ flags extractionRun) :
    readArgument arg = none := by
  have flag : arg = "--extract-data" ∨ arg = "--enable-tracing" := by
    cases extractionRun with
    | false => exact Or.inr (by simpa [flags] using mem)
    | true => simpa [flags] using mem
  apply Text.splitFirst_of_not_mem
  rcases flag with rfl | rfl <;> decide

theorem ordinary_of_isPassed {option : ConfigOption} (passed : option.isPassed = true) :
    option ≠ .androidDataHash := by
  rintro rfl
  exact absurd passed (by decide)

variable [Device]

theorem getArguments_eq {mPrefs : Preferences} {map : OptionMap}
    (stored : ∀ option : ConfigOption, option.isPassed = true →
      Config.getOption mPrefs option = .ok (map option)) (extractionRun : Bool) :
    getArguments mPrefs extractionRun =
      .ok (flags extractionRun ++ passedOptions.map (argument map)) := by
  suffices loop : ∀ (options : List ConfigOption) (argsList : List String),
      options.foldlM (fun argsList option =>
        if option.isPassed then do
          let value ← Config.getOption mPrefs option
          pure (argsList ++ [option.key ++ "=" ++ value])
        else pure argsList) argsList =
      (.ok (argsList ++ (options.filter ConfigOption.isPassed).map (argument map)) :
        Except ClassCastException (List String)) from loop ConfigOption.values _
  intro options
  induction options with
  | nil =>
    intro argsList
    exact congrArg Except.ok (List.append_nil argsList).symm
  | cons option options ih =>
    intro argsList
    rw [List.foldlM_cons]
    by_cases passed : option.isPassed = true
    · rw [if_pos passed, stored option passed, List.filter_cons_of_pos passed]
      have later := ih (argsList ++ [argument map option])
      rw [List.append_assoc] at later
      exact later
    · rw [if_neg passed, List.filter_cons_of_neg passed]
      exact ih argsList

/-- The arguments that say a value for each passed option. -/
structure Tells (args : List String) (map : OptionMap) (extractionRun : Bool) : Prop where
  read : args.filterMap readArgument = passedOptions.map fun option => (option.key, map option)
  extracts : "--extract-data" ∈ args ↔ extractionRun = true

omit [Device] in
theorem tells_arguments (map : OptionMap) (extractionRun : Bool) :
    Tells (flags extractionRun ++ passedOptions.map (argument map)) map extractionRun := by
  have silent : (flags extractionRun).filterMap readArgument = [] :=
    List.filterMap_eq_nil_iff.mpr fun arg => readArgument_flags
  constructor
  · rw [List.filterMap_append, silent, List.nil_append, List.filterMap_map, ← List.filterMap_eq_map]
    exact List.filterMap_congr fun option _ => readArgument_argument map option
  · have notArgument : "--extract-data" ∉ passedOptions.map (argument map) := by
      intro mem
      obtain ⟨option, _, same⟩ := List.mem_map.mp mem
      have flag : readArgument "--extract-data" = none := by decide
      rw [← same, readArgument_argument] at flag
      cases flag
    rw [List.mem_append, or_iff_left notArgument]
    cases extractionRun <;> decide

/-- Whatever was stored before, the game is told the value of every passed option as the map
has it, and to extract its data in an extraction run only. -/
theorem getArguments_tells (writes : List ConfigWrite) (extractionRun : Bool) :
    ∃ args, getArguments (ConfigWrite.history writes) extractionRun = .ok args ∧
      Tells args (OptionMap.after writes) extractionRun :=
  ⟨_, getArguments_eq (fun _ passed => ConfigWrite.history_getOption writes
    (ordinary_of_isPassed passed)) extractionRun, tells_arguments _ extractionRun⟩

end OpenApocActivity

end OpenApocLauncher
