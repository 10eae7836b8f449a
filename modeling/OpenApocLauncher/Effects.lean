import Mathlib.Order.Defs.Unbundled

/-! Programs with a state that survives exceptions: how they end, and what they may change. -/

namespace Effects

variable {ε σ α β : Type}

@[simp] theorem ok_bind (a : α) (next : α → Except ε β) : (Except.ok a >>= next) = next a := rfl

@[simp] theorem error_bind (e : ε) (next : α → Except ε β) :
    (Except.error e >>= next) = .error e := rfl

@[simp] theorem pure_eq_ok (a : α) : (pure a : Except ε α) = .ok a := rfl

def final (program : EStateM ε σ α) (s : σ) : σ :=
  match program.run s with
  | .ok _ s' => s'
  | .error _ s' => s'

def Ends (program : EStateM ε σ α) (s : σ) : Prop := ∃ a s', program.run s = .ok a s'

instance (program : EStateM ε σ α) (s : σ) : Decidable (Ends program s) :=
  match h : program.run s with
  | .ok a s' => isTrue ⟨a, s', h⟩
  | .error e s' => isFalse (by rintro ⟨a, s'', ok⟩; simp [h] at ok)

theorem final_of_ok {program : EStateM ε σ α} {s s' : σ} {a : α} (h : program.run s = .ok a s') :
    final program s = s' := by
  simp [final, h]

theorem final_of_error {program : EStateM ε σ α} {s s' : σ} {e : ε}
    (h : program.run s = .error e s') : final program s = s' := by
  simp [final, h]

theorem final_bind_of_ok {program : EStateM ε σ α} {next : α → EStateM ε σ β} {s s' : σ} {a : α}
    (h : program.run s = .ok a s') : final (program >>= next) s = final (next a) s' := by
  simp only [final, EStateM.run_bind, h]

theorem final_bind_of_error {program : EStateM ε σ α} {next : α → EStateM ε σ β} {s s' : σ} {e : ε}
    (h : program.run s = .error e s') : final (program >>= next) s = s' := by
  simp only [final, EStateM.run_bind, h]

theorem bind_ok {program : EStateM ε σ α} {next : α → EStateM ε σ β} {s s'' : σ} {b : β}
    (h : (program >>= next).run s = .ok b s'') :
    ∃ a s', program.run s = .ok a s' ∧ (next a).run s' = .ok b s'' := by
  rw [EStateM.run_bind] at h
  cases hp : program.run s with
  | ok a s' => exact ⟨a, s', rfl, by simpa [hp] using h⟩
  | error e s' => simp [hp] at h

theorem bind_error {program : EStateM ε σ α} {next : α → EStateM ε σ β} {s s'' : σ} {e : ε}
    (h : (program >>= next).run s = .error e s'') :
    program.run s = .error e s'' ∨
      ∃ a s', program.run s = .ok a s' ∧ (next a).run s' = .error e s'' := by
  rw [EStateM.run_bind] at h
  cases hp : program.run s with
  | ok a s' => exact Or.inr ⟨a, s', rfl, by simpa [hp] using h⟩
  | error e' s' => exact Or.inl (by simpa [hp] using h)

theorem ends_or_error (program : EStateM ε σ α) (s : σ) :
    Ends program s ∨ ∃ e s', program.run s = .error e s' := by
  cases h : program.run s with
  | ok a s' => exact Or.inl ⟨a, s', h⟩
  | error e s' => exact Or.inr ⟨e, s', rfl⟩

theorem not_ends_of_error {program : EStateM ε σ α} {s s' : σ} {e : ε}
    (h : program.run s = .error e s') : ¬Ends program s := by
  rintro ⟨a, s'', ok⟩
  simp [h] at ok

theorem ends_bind_iff {program : EStateM ε σ α} {next : α → EStateM ε σ β} {s : σ} :
    Ends (program >>= next) s ↔ ∃ a s', program.run s = .ok a s' ∧ Ends (next a) s' := by
  constructor
  · rintro ⟨b, s'', h⟩
    obtain ⟨a, s', first, second⟩ := bind_ok h
    exact ⟨a, s', first, b, s'', second⟩
  · rintro ⟨a, s', first, b, s'', second⟩
    refine ⟨b, s'', ?_⟩
    rw [EStateM.run_bind, first]
    exact second

theorem ends_bind_of_ok {program : EStateM ε σ α} {next : α → EStateM ε σ β} {s s' : σ} {a : α}
    (h : program.run s = .ok a s') : Ends (program >>= next) s ↔ Ends (next a) s' := by
  rw [ends_bind_iff]
  constructor
  · rintro ⟨a', s'', first, rest⟩
    rw [h] at first
    cases first
    exact rest
  · exact fun rest => ⟨a, s', h, rest⟩

theorem Ends.of_bind {program : EStateM ε σ α} {next : α → EStateM ε σ β} {s : σ}
    (h : Ends (program >>= next) s) : Ends program s := by
  obtain ⟨a, s', first, _⟩ := ends_bind_iff.mp h
  exact ⟨a, s', first⟩

theorem Ends.bind {program : EStateM ε σ α} {next : α → EStateM ε σ β} {s : σ}
    (first : Ends program s) (rest : ∀ a s', Ends (next a) s') : Ends (program >>= next) s := by
  obtain ⟨a, s', h⟩ := first
  exact ends_bind_iff.mpr ⟨a, s', h, rest a s'⟩

theorem Ends.pure (a : α) (s : σ) : Ends (pure a : EStateM ε σ α) s := ⟨a, s, rfl⟩

theorem run_swallow (program : EStateM ε σ Unit) (s : σ) :
    (tryCatch program fun _ => pure ()).run s = .ok () (final program s) := by
  change EStateM.tryCatch program (fun _ => pure ()) s = _
  unfold EStateM.tryCatch final
  cases h : program s with
  | ok a s' => simp [EStateM.run, h]
  | error e s' => simp [EStateM.run, h]; rfl

/-- The states before and after the program are related, however it ends. -/
def Within (R : σ → σ → Prop) (program : EStateM ε σ α) : Prop := ∀ s, R s (final program s)

theorem Within.bind {R : σ → σ → Prop} [IsTrans σ R] {program : EStateM ε σ α} {next : α → EStateM ε σ β}
    (first : Within R program) (second : ∀ a, Within R (next a)) :
    Within R (program >>= next) := by
  intro s
  have h := first s
  cases hp : program.run s with
  | ok a s' =>
    rw [final_of_ok hp] at h
    rw [final_bind_of_ok hp]
    exact IsTrans.trans _ _ _ h (second a s')
  | error e s' =>
    rw [final_of_error hp] at h
    rwa [final_bind_of_error hp]

theorem Within.pure {R : σ → σ → Prop} (refl : ∀ s, R s s) (a : α) :
    Within R (pure a : EStateM ε σ α) :=
  refl

theorem Within.get {R : σ → σ → Prop} (refl : ∀ s, R s s) :
    Within R (get : EStateM ε σ σ) :=
  refl

theorem Within.ite {R : σ → σ → Prop} {c : Prop} [Decidable c] {yes no : EStateM ε σ α}
    (first : Within R yes) (second : Within R no) : Within R (if c then yes else no) := by
  split
  · exact first
  · exact second

end Effects
