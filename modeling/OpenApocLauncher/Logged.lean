import OpenApocLauncher.Effects

/-! Programs that say something while they run, and the silent programs left of them. -/

namespace Logged

open Effects

variable {ε σ ω α β : Type}

/-- The silent program, saying nothing. -/
def lift (program : EStateM ε σ α) : EStateM ε (σ × List ω) α := fun s =>
  match program.run s.1 with
  | .ok a s' => .ok a (s', s.2)
  | .error e s' => .error e (s', s.2)

def tell (word : ω) : EStateM ε (σ × List ω) Unit :=
  modify fun s => (s.1, s.2 ++ [word])

theorem lift_run (program : EStateM ε σ α) (s : σ × List ω) :
    (lift program : EStateM ε (σ × List ω) α).run s =
      match program.run s.1 with
      | .ok a s' => .ok a (s', s.2)
      | .error e s' => .error e (s', s.2) := rfl

theorem lift_ok {program : EStateM ε σ α} {s : σ × List ω} {a : α} {s' : σ}
    (h : program.run s.1 = .ok a s') :
    (lift program : EStateM ε (σ × List ω) α).run s = .ok a (s', s.2) := by
  rw [lift_run, h]

theorem lift_error {program : EStateM ε σ α} {s : σ × List ω} {e : ε} {s' : σ}
    (h : program.run s.1 = .error e s') :
    (lift program : EStateM ε (σ × List ω) α).run s = .error e (s', s.2) := by
  rw [lift_run, h]

def forget : EStateM.Result ε (σ × List ω) α → EStateM.Result ε σ α
  | .ok a s => .ok a s.1
  | .error e s => .error e s.1

/-- But for what is said the two programs do the same. -/
def Erases (logged : EStateM ε (σ × List ω) α) (silent : EStateM ε σ α) : Prop :=
  ∀ s, forget (logged.run s) = silent.run s.1

theorem erases_lift (program : EStateM ε σ α) :
    Erases (lift program : EStateM ε (σ × List ω) α) program := by
  intro s
  cases h : program.run s.1 with
  | ok a s' => rw [lift_ok h, forget]
  | error e s' => rw [lift_error h, forget]

theorem erases_tell (word : ω) :
    Erases (tell word : EStateM ε (σ × List ω) Unit) (pure ()) := fun _ => rfl

theorem erases_pure (a : α) : Erases (pure a : EStateM ε (σ × List ω) α) (pure a) := fun _ => rfl

theorem Erases.bind {logged : EStateM ε (σ × List ω) α} {silent : EStateM ε σ α}
    {next : α → EStateM ε (σ × List ω) β} {next' : α → EStateM ε σ β} (first : Erases logged silent)
    (second : ∀ a, Erases (next a) (next' a)) : Erases (logged >>= next) (silent >>= next') := by
  intro s
  have here := first s
  rw [EStateM.run_bind, EStateM.run_bind, ← here]
  cases logged.run s with
  | ok a s' => exact second a s'
  | error e s' => rfl

/-- A program that says something first. -/
theorem Erases.told {logged : EStateM ε (σ × List ω) α} {silent : EStateM ε σ α}
    {say : EStateM ε (σ × List ω) Unit} (said : Erases say (pure ()))
    (rest : Erases logged silent) : Erases (do say; logged) silent := by
  have both := said.bind fun _ => rest
  intro s
  rw [both s]
  rfl

theorem Erases.final {logged : EStateM ε (σ × List ω) α} {silent : EStateM ε σ α}
    (h : Erases logged silent) (s : σ × List ω) :
    (Effects.final logged s).1 = Effects.final silent s.1 := by
  have here := h s
  unfold Effects.final
  rw [← here]
  cases logged.run s with
  | ok a s' => rfl
  | error e s' => rfl

theorem Erases.ends_iff {logged : EStateM ε (σ × List ω) α} {silent : EStateM ε σ α}
    (h : Erases logged silent) (s : σ × List ω) : Ends logged s ↔ Ends silent s.1 := by
  unfold Ends
  rw [← h s]
  cases logged.run s with
  | ok a s' => simp [forget]
  | error e s' => simp [forget]

theorem Erases.swallow {logged : EStateM ε (σ × List ω) Unit} {silent : EStateM ε σ Unit}
    (h : Erases logged silent) :
    Erases (tryCatch logged fun _ => pure ()) (tryCatch silent fun _ => pure ()) := by
  intro s
  rw [run_swallow, run_swallow, forget, h.final]

end Logged
