import Mathlib.Data.Finset.Basic
import Mathlib.Logic.Function.Basic

namespace OpenApocLauncher

inductive PrefValue
  | string (value : String)
  | stringSet (values : Finset String)
  | int (value : Int)
  deriving DecidableEq

structure ClassCastException where
  key : String
  deriving DecidableEq

/-- A SharedPreferences file: one untyped map, read through typed getters. -/
structure Preferences where
  value : String → Option PrefValue

namespace Preferences

def empty : Preferences := ⟨fun _ => none⟩

def getString (prefs : Preferences) (key default : String) : Except ClassCastException String :=
  match prefs.value key with
  | none => .ok default
  | some (.string value) => .ok value
  | some _ => .error ⟨key⟩

def getStringSet (prefs : Preferences) (key : String) (default : Finset String) :
    Except ClassCastException (Finset String) :=
  match prefs.value key with
  | none => .ok default
  | some (.stringSet values) => .ok values
  | some _ => .error ⟨key⟩

def getInt (prefs : Preferences) (key : String) (default : Int) : Except ClassCastException Int :=
  match prefs.value key with
  | none => .ok default
  | some (.int value) => .ok value
  | some _ => .error ⟨key⟩

/-- The edits an Editor has collected; nothing is stored before `apply`. -/
abbrev Editor := List (String × PrefValue)

def edit : Editor := []

def Editor.putString (editor : Editor) (key value : String) : Editor :=
  editor ++ [(key, .string value)]

def Editor.putStringSet (editor : Editor) (key : String) (values : Finset String) : Editor :=
  editor ++ [(key, .stringSet values)]

def put (prefs : Preferences) (edit : String × PrefValue) : Preferences :=
  ⟨Function.update prefs.value edit.1 (some edit.2)⟩

/-- All the edits of an Editor are stored at once, the last one for a key winning. -/
def apply (prefs : Preferences) (editor : Editor) : Preferences :=
  editor.foldl put prefs

@[simp] theorem empty_value (key : String) : empty.value key = none := rfl

@[simp] theorem put_value_self (prefs : Preferences) (key : String) (value : PrefValue) :
    (prefs.put (key, value)).value key = some value := by
  simp [put]

theorem put_value_other (prefs : Preferences) {key other : String} (value : PrefValue)
    (h : other ≠ key) : (prefs.put (key, value)).value other = prefs.value other := by
  simp [put, h]

@[simp] theorem apply_nil (prefs : Preferences) : prefs.apply [] = prefs := rfl

@[simp] theorem apply_cons (prefs : Preferences) (edit : String × PrefValue) (editor : Editor) :
    prefs.apply (edit :: editor) = (prefs.put edit).apply editor := rfl

theorem apply_value_other (prefs : Preferences) {editor : Editor} {key : String}
    (h : ∀ edit ∈ editor, edit.1 ≠ key) : (prefs.apply editor).value key = prefs.value key := by
  induction editor generalizing prefs with
  | nil => rfl
  | cons edit editor ih =>
    rw [apply_cons, ih _ (fun e he => h e (List.mem_cons_of_mem _ he))]
    exact put_value_other prefs edit.2 (h edit (by simp)).symm

theorem apply_value_of_mem (prefs : Preferences) {editor : Editor} {key : String} {value : PrefValue}
    (distinct : (editor.map Prod.fst).Nodup) (h : (key, value) ∈ editor) :
    (prefs.apply editor).value key = some value := by
  induction editor generalizing prefs with
  | nil => simp at h
  | cons edit editor ih =>
    have hd := List.nodup_cons.mp distinct
    rcases List.mem_cons.mp h with rfl | mem
    · rw [apply_cons, apply_value_other]
      · exact put_value_self prefs key value
      · intro e he same
        exact hd.1 (List.mem_map.mpr ⟨e, he, same⟩)
    · exact ih _ hd.2 mem

end Preferences

end OpenApocLauncher
