import Mathlib.Data.List.Basic

/-! Runs of a machine given by one total step function over events. -/

namespace Machine

variable {σ ε : Type*} (step : σ → ε → σ)

def run (s : σ) (events : List ε) : σ := events.foldl step s

@[simp] theorem run_nil (s : σ) : run step s [] = s := rfl

@[simp] theorem run_cons (s : σ) (e : ε) (events : List ε) :
    run step s (e :: events) = run step (step s e) events := rfl

theorem run_append (s : σ) (first second : List ε) :
    run step s (first ++ second) = run step (run step s first) second :=
  List.foldl_append

@[simp] theorem run_concat (s : σ) (events : List ε) (e : ε) :
    run step s (events ++ [e]) = step (run step s events) e := by
  rw [run_append, run_cons, run_nil]

/-- Every step of the run is taken in a state in which `ok` allows its event. -/
def Guarded (ok : σ → ε → Prop) : σ → List ε → Prop
  | _, [] => True
  | s, e :: events => ok s e ∧ Guarded ok (step s e) events

instance Guarded.decidable (ok : σ → ε → Prop) [∀ s e, Decidable (ok s e)] :
    ∀ s events, Decidable (Guarded step ok s events)
  | _, [] => isTrue trivial
  | s, e :: events =>
    have := Guarded.decidable ok (step s e) events
    inferInstanceAs (Decidable (ok s e ∧ Guarded step ok (step s e) events))

variable {step}

theorem Guarded.upTo {ok : σ → ε → Prop} {s : σ} {before events : List ε}
    (guarded : Guarded step ok s events) (isPrefix : before <+: events) :
    Guarded step ok s before := by
  induction before generalizing s events with
  | nil => trivial
  | cons e before ih =>
    obtain ⟨rest, rfl⟩ := isPrefix
    exact ⟨guarded.1, ih guarded.2 (List.prefix_append before rest)⟩

theorem Guarded.and {ok ok' : σ → ε → Prop} {s : σ} {events : List ε}
    (first : Guarded step ok s events) (second : Guarded step ok' s events) :
    Guarded step (fun s e => ok s e ∧ ok' s e) s events := by
  induction events generalizing s with
  | nil => trivial
  | cons e events ih => exact ⟨⟨first.1, second.1⟩, ih first.2 second.2⟩

theorem Guarded.invariant {ok : σ → ε → Prop} {s : σ} {events : List ε}
    (guarded : Guarded step ok s events) (Inv : σ → Prop)
    (preserved : ∀ s e, ok s e → Inv s → Inv (step s e)) (start : Inv s) :
    Inv (run step s events) := by
  induction events generalizing s with
  | nil => exact start
  | cons e events ih => exact ih guarded.2 (preserved s e guarded.1 start)

theorem run_invariant {s : σ} {events : List ε} (Inv : σ → Prop)
    (preserved : ∀ s, ∀ e ∈ events, Inv s → Inv (step s e)) (start : Inv s) :
    Inv (run step s events) := by
  induction events generalizing s with
  | nil => exact start
  | cons e events ih =>
    exact ih (fun s other mem => preserved s other (List.mem_cons_of_mem e mem))
      (preserved s e List.mem_cons_self start)

theorem guarded_of_invariant {ok : σ → ε → Prop} {s : σ} {events : List ε} (Inv : σ → Prop)
    (preserved : ∀ s, ∀ e ∈ events, Inv s → Inv (step s e)) (start : Inv s)
    (implies : ∀ s, ∀ e ∈ events, Inv s → ok s e) : Guarded step ok s events := by
  induction events generalizing s with
  | nil => trivial
  | cons e events ih =>
    exact ⟨implies s e List.mem_cons_self start,
      ih (fun s other mem => preserved s other (List.mem_cons_of_mem e mem))
        (preserved s e List.mem_cons_self start)
        fun s other mem => implies s other (List.mem_cons_of_mem e mem)⟩

/-- An invariant of a guarded run may be used in each of its steps. -/
theorem Guarded.strengthen {ok ok' : σ → ε → Prop} {s : σ} {events : List ε}
    (guarded : Guarded step ok s events) (Inv : σ → Prop)
    (preserved : ∀ s e, ok s e → Inv s → Inv (step s e)) (start : Inv s)
    (implies : ∀ s e, ok s e → Inv s → ok' s e) : Guarded step ok' s events := by
  induction events generalizing s with
  | nil => trivial
  | cons e events ih =>
    exact ⟨implies s e guarded.1 start, ih guarded.2 (preserved s e guarded.1 start)⟩

section Emitted

variable {τ δ : Type*} {step' : τ → δ → τ} {emits : σ → ε → Option δ}

variable (step) in
/-- The events of another machine that the steps of a run amount to. -/
def emitted (emits : σ → ε → Option δ) : σ → List ε → List δ
  | _, [] => []
  | s, e :: events => (emits s e).toList ++ emitted emits (step s e) events

theorem mem_emitted {s : σ} {events : List ε} {d : δ} (mem : d ∈ emitted step emits s events) :
    ∃ s', ∃ e ∈ events, emits s' e = some d := by
  induction events generalizing s with
  | nil => simp [emitted] at mem
  | cons e events ih =>
    rcases List.mem_append.mp mem with own | later
    · exact ⟨s, e, List.mem_cons_self, Option.mem_toList.mp own⟩
    · obtain ⟨s', other, inside, own⟩ := ih later
      exact ⟨s', other, List.mem_cons_of_mem e inside, own⟩

/-- A machine whose steps are, seen from one side, those of another: so are its runs. -/
theorem run_emitted (view : σ → τ)
    (simulates : ∀ s e, view (step s e) = run step' (view s) (emits s e).toList) (s : σ)
    (events : List ε) :
    view (run step s events) = run step' (view s) (emitted step emits s events) := by
  induction events generalizing s with
  | nil => rfl
  | cons e events ih =>
    rw [run_cons, ih, simulates, emitted, run_append]

/-- What holds at each step of the other run holds at the steps that amount to them. -/
theorem Guarded.of_emitted {ok : τ → δ → Prop} (view : σ → τ)
    (simulates : ∀ s e, view (step s e) = run step' (view s) (emits s e).toList) {s : σ}
    {events : List ε} (guarded : Guarded step' ok (view s) (emitted step emits s events)) :
    Guarded step (fun s e => ∀ d, emits s e = some d → ok (view s) d) s events := by
  induction events generalizing s with
  | nil => trivial
  | cons e events ih =>
    have next := simulates s e
    rw [emitted] at guarded
    cases emitted : emits s e with
    | none =>
      rw [emitted] at guarded next
      refine ⟨by simp [emitted], ih ?_⟩
      rw [next]
      exact guarded
    | some d =>
      rw [emitted] at guarded next
      refine ⟨fun other same => ?_, ih ?_⟩
      · rw [emitted] at same
        cases Option.some.inj same
        exact guarded.1
      · rw [next]
        exact guarded.2

end Emitted

end Machine
