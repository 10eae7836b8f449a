import Mathlib.Data.List.Infix
import OpenApocLauncher.Preferences

namespace OpenApocLauncher

/-- What the program asks of the phone it runs on: the directory
`Environment.getExternalStorageDirectory()` and lower-casing in the default locale. -/
class Device where
  externalStorageDirectory : String
  toLowerCase : String → String

@[reducible] def emulator : Device where
  externalStorageDirectory := "/sdcard"
  toLowerCase := String.toLower

inductive ConfigOption
  | language | gamerules | resLocalDataDir | resSystemDataDir | resLocalCdPath | resSystemCdPath
  | visualRenderers | audioBackends | frameworkThreadpoolSize | androidDataHash
  | visualScaleX | visualScaleY
  deriving DecidableEq

/-- The constructor arguments of an option that the program reads. -/
structure OptionArgs where
  key : String
  defaultValue : Option String
  isPassed : Bool

namespace ConfigOption

def values : List ConfigOption :=
  [.language, .gamerules, .resLocalDataDir, .resSystemDataDir, .resLocalCdPath, .resSystemCdPath,
    .visualRenderers, .audioBackends, .frameworkThreadpoolSize, .androidDataHash,
    .visualScaleX, .visualScaleY]

def args : ConfigOption → OptionArgs
  | .language => ⟨"Language", some "en_gb", true⟩
  | .gamerules => ⟨"GameRules", some "XCOMAPOC.XML", true⟩
  | .resLocalDataDir => ⟨"Resource.LocalDataDir", none, true⟩
  | .resSystemDataDir => ⟨"Resource.SystemDataDir", none, true⟩
  | .resLocalCdPath => ⟨"Resource.LocalCDPath", none, true⟩
  | .resSystemCdPath => ⟨"Resource.SystemCDPath", none, true⟩
  | .visualRenderers => ⟨"Visual.Renderers", some "GLES_3_0:GLES_2_0", true⟩
  | .audioBackends => ⟨"Audio.Backends", some "SDLRaw:allegro:null", true⟩
  | .frameworkThreadpoolSize => ⟨"Framework.TreadPoolSize", some "0", true⟩
  | .androidDataHash => ⟨"Android.DataHash", some "Undefined", false⟩
  | .visualScaleX => ⟨"Visual.ScaleX", some "100", true⟩
  | .visualScaleY => ⟨"Visual.ScaleY", some "100", true⟩

def key (option : ConfigOption) : String := option.args.key

def isPassed (option : ConfigOption) : Bool := option.args.isPassed

theorem mem_values (option : ConfigOption) : option ∈ values := by
  cases option <;> decide

theorem key_nodup : (values.map key).Nodup := by decide

theorem key_injective : Function.Injective key := fun a b same =>
  List.inj_on_of_nodup_map key_nodup (mem_values a) (mem_values b) same

section Defaults

variable [Device]

/-- The default the constructor stores; `none` is Java's null. -/
def constructDefault (key : String) : Option String → Option String
  | some defaultValue => some defaultValue
  | none =>
    let externalStoragePath := Device.externalStorageDirectory
    if "DataDir".toList <:+: key.toList then some (externalStoragePath ++ "/OpenApoc/data")
    else if "CDPath".toList <:+: key.toList then some (externalStoragePath ++ "/OpenApoc/XCOM.cue")
    else none

theorem constructDefault_isSome (option : ConfigOption) :
    (constructDefault option.key option.args.defaultValue).isSome := by
  cases option <;> rfl

def value (option : ConfigOption) : String :=
  (constructDefault option.key option.args.defaultValue).get option.constructDefault_isSome

end Defaults

end ConfigOption

/-! The methods of `Config` over its `mPrefs`. -/

namespace Config

def setOption (mPrefs : Preferences) (option : ConfigOption) (value : String) : Preferences :=
  mPrefs.apply (Preferences.edit.putString option.key value)

def setOptionSet (mPrefs : Preferences) (option : ConfigOption) (values : Finset String) :
    Preferences :=
  mPrefs.apply (Preferences.edit.putStringSet option.key values)

@[simp] theorem setOption_value_self (mPrefs : Preferences) (option : ConfigOption)
    (value : String) : (setOption mPrefs option value).value option.key = some (.string value) :=
  Preferences.put_value_self mPrefs option.key _

theorem setOption_value_other (mPrefs : Preferences) {option other : ConfigOption}
    (value : String) (h : other ≠ option) :
    (setOption mPrefs option value).value other.key = mPrefs.value other.key :=
  Preferences.put_value_other mPrefs _ (ConfigOption.key_injective.ne h)

@[simp] theorem setOptionSet_value_self (mPrefs : Preferences) (option : ConfigOption)
    (values : Finset String) :
    (setOptionSet mPrefs option values).value option.key = some (.stringSet values) :=
  Preferences.put_value_self mPrefs option.key _

theorem setOptionSet_value_other (mPrefs : Preferences) {option other : ConfigOption}
    (values : Finset String) (h : other ≠ option) :
    (setOptionSet mPrefs option values).value other.key = mPrefs.value other.key :=
  Preferences.put_value_other mPrefs _ (ConfigOption.key_injective.ne h)

variable [Device]

def getOption (mPrefs : Preferences) (option : ConfigOption) : Except ClassCastException String :=
  mPrefs.getString option.key option.value

def getOptionSet (mPrefs : Preferences) (option : ConfigOption) :
    Except ClassCastException (Finset String) :=
  mPrefs.getStringSet option.key ∅

theorem getOption_setOption_self (mPrefs : Preferences) (option : ConfigOption) (value : String) :
    getOption (setOption mPrefs option value) option = .ok value := by
  simp [getOption, Preferences.getString]

theorem getOption_congr {mPrefs mPrefs' : Preferences} {option : ConfigOption}
    (h : mPrefs.value option.key = mPrefs'.value option.key) :
    getOption mPrefs option = getOption mPrefs' option := by
  simp [getOption, Preferences.getString, h]

omit [Device] in
theorem getOptionSet_setOptionSet_self (mPrefs : Preferences) (option : ConfigOption)
    (values : Finset String) : getOptionSet (setOptionSet mPrefs option values) option = .ok values := by
  simp [getOptionSet, Preferences.getStringSet]

omit [Device] in
theorem getOptionSet_congr {mPrefs mPrefs' : Preferences} {option : ConfigOption}
    (h : mPrefs.value option.key = mPrefs'.value option.key) :
    getOptionSet mPrefs option = getOptionSet mPrefs' option := by
  simp [getOptionSet, Preferences.getStringSet, h]

def getLanguage (mPrefs : Preferences) : Except ClassCastException String :=
  mPrefs.getString ConfigOption.language.key ConfigOption.language.value

def getGamerules (mPrefs : Preferences) : Except ClassCastException String :=
  mPrefs.getString ConfigOption.gamerules.key ConfigOption.gamerules.value

def getLocalDataDir (mPrefs : Preferences) : Except ClassCastException String :=
  mPrefs.getString ConfigOption.resLocalDataDir.key ConfigOption.resLocalDataDir.value

def getSystemDataDir (mPrefs : Preferences) : Except ClassCastException String :=
  mPrefs.getString ConfigOption.resSystemDataDir.key ConfigOption.resSystemDataDir.value

def getLocalCdPath (mPrefs : Preferences) : Except ClassCastException String :=
  mPrefs.getString ConfigOption.resLocalCdPath.key ConfigOption.resLocalCdPath.value

def getSystemCdPath (mPrefs : Preferences) : Except ClassCastException String :=
  mPrefs.getString ConfigOption.resSystemCdPath.key ConfigOption.resSystemCdPath.value

def getRenderers (mPrefs : Preferences) : Except ClassCastException String :=
  mPrefs.getString ConfigOption.visualRenderers.key ConfigOption.visualRenderers.value

/-- The default of this accessor is the renderers' one, as in the source. -/
def getAudioBackends (mPrefs : Preferences) : Except ClassCastException String :=
  mPrefs.getString ConfigOption.audioBackends.key ConfigOption.visualRenderers.value

/-- `Integer.parseInt` of the declared default, which is a numeral. -/
def getThreadpoolSize (mPrefs : Preferences) : Except ClassCastException Int :=
  let prefThreadpoolSize := (ConfigOption.frameworkThreadpoolSize.value.toInt?).getD 0
  mPrefs.getInt ConfigOption.frameworkThreadpoolSize.key prefThreadpoolSize

def defaultEdits : Preferences.Editor :=
  ConfigOption.values.foldl (fun editor pref => editor.putString pref.key pref.value)
    Preferences.edit

/-- The editor is never applied. -/
def save (mPrefs : Preferences) : Preferences :=
  let _editor := defaultEdits
  mPrefs

def setDefaults (mPrefs : Preferences) : Preferences :=
  mPrefs.apply defaultEdits

theorem defaultEdits_eq :
    defaultEdits = ConfigOption.values.map fun option => (option.key, .string option.value) := rfl

theorem setDefaults_value (mPrefs : Preferences) (option : ConfigOption) :
    (setDefaults mPrefs).value option.key = some (.string option.value) := by
  apply Preferences.apply_value_of_mem
  · rw [defaultEdits_eq, List.map_map]
    exact ConfigOption.key_nodup
  · rw [defaultEdits_eq]
    exact List.mem_map.mpr ⟨option, option.mem_values, rfl⟩

end Config

end OpenApocLauncher
