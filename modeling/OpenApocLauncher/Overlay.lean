import Mathlib.Data.List.Basic

/-! Lists of writes to a keyed store, of which the last one to a key counts. -/

namespace Overlay

variable {κ α : Type} [DecidableEq κ]

def lastWrite : List (κ × α) → κ → Option α
  | [], _ => none
  | write :: rest, key => (lastWrite rest key).or (if write.1 = key then some write.2 else none)

theorem lastWrite_append (first second : List (κ × α)) (key : κ) :
    lastWrite (first ++ second) key = (lastWrite second key).or (lastWrite first key) := by
  induction first with
  | nil => simp [lastWrite]
  | cons write first ih => rw [List.cons_append, lastWrite, ih, lastWrite, Option.or_assoc]

theorem lastWrite_append_some {first second : List (κ × α)} {key : κ} {value : α}
    (h : lastWrite (first ++ second) key = some value) :
    lastWrite second key = some value ∨
      lastWrite second key = none ∧ lastWrite first key = some value := by
  rw [lastWrite_append] at h
  cases later : lastWrite second key with
  | none => exact Or.inr ⟨rfl, by simpa [later] using h⟩
  | some value' => exact Or.inl (by simpa [later] using h)

theorem lastWrite_mem {writes : List (κ × α)} {key : κ} {value : α}
    (h : lastWrite writes key = some value) : (key, value) ∈ writes := by
  induction writes with
  | nil => simp [lastWrite] at h
  | cons write rest ih =>
    rw [lastWrite] at h
    cases later : lastWrite rest key with
    | some value' =>
      have same : value' = value := by simpa [later] using h
      exact List.mem_cons_of_mem _ (ih (same ▸ later))
    | none =>
      rw [later, Option.none_or] at h
      split at h
      next here =>
        cases Option.some.inj h
        subst here
        exact List.mem_cons_self
      next => simp at h

theorem lastWrite_eq_none {writes : List (κ × α)} {key : κ} (h : ∀ write ∈ writes, write.1 ≠ key) :
    lastWrite writes key = none := by
  cases last : lastWrite writes key with
  | none => rfl
  | some value => exact absurd rfl (h (key, value) (lastWrite_mem last))

theorem lastWrite_ne_none {writes : List (κ × α)} {write : κ × α} (h : write ∈ writes) :
    lastWrite writes write.1 ≠ none := by
  induction writes with
  | nil => simp at h
  | cons first rest ih =>
    rw [lastWrite]
    rcases List.mem_cons.mp h with rfl | later
    · simp
    · simp [ih later]

/-- The store after the writes. -/
def overlay (store : κ → Option α) (writes : List (κ × α)) : κ → Option α :=
  fun key => (lastWrite writes key).or (store key)

theorem overlay_append (store : κ → Option α) (first second : List (κ × α)) :
    overlay store (first ++ second) = overlay (overlay store first) second := by
  funext key
  rw [overlay, lastWrite_append, Option.or_assoc, overlay, overlay]

theorem overlay_of_some {store : κ → Option α} {writes : List (κ × α)} {key : κ} {value : α}
    (h : lastWrite writes key = some value) : overlay store writes key = some value := by
  rw [overlay, h, Option.some_or]

theorem overlay_of_none {store : κ → Option α} {writes : List (κ × α)} {key : κ}
    (h : lastWrite writes key = none) : overlay store writes key = store key := by
  rw [overlay, h, Option.none_or]

/-- Groups of writes without a common key can be written in any order. -/
theorem lastWrite_flatMap_perm {γ : Type} {groups groups' : List γ} {writes : γ → List (κ × α)}
    (perm : groups.Perm groups')
    (apart : groups.Pairwise fun first second =>
      ∀ write ∈ writes first, ∀ write' ∈ writes second, write.1 ≠ write'.1) (key : κ) :
    lastWrite (groups.flatMap writes) key = lastWrite (groups'.flatMap writes) key := by
  induction perm with
  | nil => rfl
  | cons group _ ih =>
    have rest := ih (List.pairwise_cons.mp apart).2
    rw [List.flatMap_cons, List.flatMap_cons, lastWrite_append, lastWrite_append, rest]
  | swap first second groups =>
    -- one of the two groups does not write the key
    have disjoint := (List.pairwise_cons.mp apart).1 first List.mem_cons_self
    have untouched : lastWrite (writes first) key = none ∨ lastWrite (writes second) key = none := by
      cases last : lastWrite (writes second) key with
      | none => exact Or.inr rfl
      | some value =>
        have here := disjoint (key, value) (lastWrite_mem last)
        exact Or.inl (lastWrite_eq_none fun write mem same => here write mem same.symm)
    simp only [List.flatMap_cons, lastWrite_append]
    rcases untouched with none | none
    · simp [none]
    · simp [none]
  | trans first _ ih ih' =>
    have symm : ∀ {a b : γ}, (∀ write ∈ writes a, ∀ write' ∈ writes b, write.1 ≠ write'.1) →
        ∀ write ∈ writes b, ∀ write' ∈ writes a, write.1 ≠ write'.1 :=
      fun apart write mem write' mem' => (apart write' mem' write mem).symm
    exact (ih apart).trans (ih' ((first.pairwise_iff symm).mp apart))

/-- Every key that is written holds what was written last. -/
def Holds (store : κ → Option α) (writes : List (κ × α)) : Prop :=
  ∀ key value, lastWrite writes key = some value → store key = some value

/-- The store took the writes and lost nothing beside them. -/
structure Absorbs (store : κ → Option α) (writes : List (κ × α)) (store' : κ → Option α) : Prop where
  written : Holds store' writes
  kept : ∀ key value, store key = some value → lastWrite writes key = none → store' key = some value

theorem holds_nil (store : κ → Option α) : Holds store [] := by
  intro key value h
  simp [lastWrite] at h

theorem Absorbs.holds_append {store store' : κ → Option α} {first second : List (κ × α)}
    (absorbs : Absorbs store second store') (holds : Holds store first) :
    Holds store' (first ++ second) := by
  intro key value h
  rcases lastWrite_append_some h with later | ⟨untouched, earlier⟩
  · exact absorbs.written key value later
  · exact absorbs.kept key value (holds key value earlier) untouched

/-- Later writes leave a key of the earlier ones alone or write the same value there. -/
def Survives (held later : List (κ × α)) : Prop :=
  ∀ key value, lastWrite held key = some value →
    lastWrite later key = none ∨ lastWrite later key = some value

/-- The keys of the earlier writes hold what these and the later writes left there. -/
def Follows (store : κ → Option α) (held later : List (κ × α)) : Prop :=
  ∀ key value, lastWrite held key ≠ none → lastWrite (held ++ later) key = some value →
    store key = some value

theorem survives_of_eq_nil {held later : List (κ × α)} (none : later = []) :
    Survives held later := by
  subst none
  intro key value _
  exact Or.inl rfl

theorem Survives.congr {held held' later : List (κ × α)} (survives : Survives held later)
    (same : ∀ key, lastWrite held key = lastWrite held' key) : Survives held' later := by
  intro key value last
  exact survives key value ((same key).trans last)

theorem Holds.follows {store : κ → Option α} {held : List (κ × α)} (holds : Holds store held) :
    Follows store held [] := by
  intro key value _ last
  rw [List.append_nil] at last
  exact holds key value last

theorem Follows.congr {store : κ → Option α} {held held' later : List (κ × α)}
    (follows : Follows store held later) (same : ∀ key, lastWrite held key = lastWrite held' key) :
    Follows store held' later := by
  intro key value written last
  apply follows key value
  · rw [same]
    exact written
  · rw [lastWrite_append, same, ← lastWrite_append]
    exact last

theorem Absorbs.follows_append {store store' : κ → Option α} {held later more : List (κ × α)}
    (absorbs : Absorbs store more store') (follows : Follows store held later) :
    Follows store' held (later ++ more) := by
  intro key value written last
  rw [← List.append_assoc] at last
  rcases lastWrite_append_some last with new | ⟨untouched, old⟩
  · exact absorbs.written key value new
  · exact absorbs.kept key value (follows key value written old) untouched

theorem Follows.holds {store : κ → Option α} {held later : List (κ × α)}
    (follows : Follows store held later) (survives : Survives held later) : Holds store held := by
  intro key value last
  apply follows key value (by simp [last])
  rw [lastWrite_append, last]
  rcases survives key value last with untouched | same
  · simp [untouched]
  · simp [same]

end Overlay
