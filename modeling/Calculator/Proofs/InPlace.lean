import Calculator.Error

/-!
# Programs that change a state in place

A program reads and writes a state bit by bit, and what it has written stays written when it fails
later on. It performs a step if it leaves behind what the step says, and the state as it was where
the step fails.
-/

namespace Calculator

/-- A program that writes a state in place and may fail on the way. -/
abbrev InPlace (σ : Type) := ExceptT Failure (StateM σ)

namespace InPlace

variable {σ α β : Type}

/-- What a program answers from a state, and the state behind it. -/
def on (p : InPlace σ α) (s : σ) : Except Failure α × σ := (ExceptT.run p).run s

def check (x : Except Failure α) : InPlace σ α := ExceptT.mk (pure x)

@[simp]
theorem on_check (x : Except Failure α) (s : σ) : on (check x) s = (x, s) := rfl

@[simp]
theorem on_get (s : σ) : on get s = (.ok s, s) := rfl

@[simp]
theorem on_modify (f : σ → σ) (s : σ) : on (modify f) s = (.ok ⟨⟩, f s) := rfl

theorem on_bind (p : InPlace σ α) (next : α → InPlace σ β) (s : σ) :
    on (p >>= next) s = match on p s with
      | (.ok a, s') => on (next a) s'
      | (.error f, s') => (.error f, s') := by
  change (ExceptT.bindCont next (on p s).1).run (on p s).2 = _
  rcases on p s with ⟨a | f, s'⟩ <;> rfl

theorem on_tryCatch (p : InPlace σ α) (handle : Failure → InPlace σ α) (s : σ) :
    on (tryCatch p handle) s = match on p s with
      | (.ok a, s') => (.ok a, s')
      | (.error f, s') => on (handle f) s' := by
  unfold on
  rw [ExceptT.run_tryCatch, StateT.run_bind]
  rcases (ExceptT.run p).run s with ⟨a | f, s'⟩ <;> rfl

def first {τ : Type} (p : InPlace σ α) : InPlace (σ × τ) α :=
  ExceptT.mk fun (s, t) => ((on p s).1, ((on p s).2, t))

@[simp]
theorem on_first {τ : Type} (p : InPlace σ α) (s : σ) (t : τ) :
    on (first p) (s, t) = ((on p s).1, ((on p s).2, t)) := rfl

/-- The program does to the state what the step says, and nothing at all where the step fails. -/
def Performs (p : InPlace σ Unit) (s : σ) (step : Except Failure σ) : Prop :=
  on p s = match step with
    | .ok s' => (.ok (), s')
    | .error f => (.error f, s)

theorem Performs.check {x : Except Failure α} {next : α → InPlace σ Unit}
    {step : α → Except Failure σ} {s : σ} (h : ∀ a, Performs (next a) s (step a)) :
    Performs (InPlace.check x >>= next) s (x >>= step) := by
  cases x with
  | ok a => exact h a
  | error f => exact on_bind _ _ _

theorem Performs.read {next : σ → InPlace σ Unit} {step : Except Failure σ} {s : σ}
    (h : Performs (next s) s step) : Performs (get >>= next) s step := h

theorem Performs.andThen {p : InPlace σ Unit} {step : Except Failure σ} {s : σ}
    (h : Performs p s step) (f : σ → σ) :
    Performs (p >>= fun _ => modify f) s (step.map f) := by
  cases step <;> simp_all [Performs, on_bind, Except.map]

end InPlace

end Calculator
