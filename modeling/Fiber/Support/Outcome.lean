import Mathlib.Logic.Basic

/-!
# Outcomes of code that may throw

An exception keeps the changes made before it, so the state in which code ends
does not depend on how it ends, and a caller that catches sees the outcome as a
value.
-/

namespace Fiber.Support

universe u

variable {ε σ α β : Type u}

theorem run_tryCatch (code : EStateM ε σ α) (catcher : ε → EStateM ε σ α)
    (s : σ) :
    (tryCatch code catcher).run s =
      match code.run s with
      | .ok a s' => .ok a s'
      | .error e s' => (catcher e).run s' := by
  change EStateM.tryCatch code catcher s = _
  delta EStateM.tryCatch EStateM.run
  cases code s <;> rfl

/-- `try { … } catch`, with the outcome as a value. -/
def captured (code : EStateM ε σ α) : EStateM ε σ (Except ε α) :=
  tryCatch (do
    let a ← code
    pure (.ok a)) fun e => pure (.error e)

/-- The state is changed by `f` when an exception leaves the code. -/
def onThrow (f : σ → σ) (code : EStateM ε σ α) : EStateM ε σ α :=
  tryCatch code fun e => do
    modify f
    throw e

/-- The state at the end of code, returned or thrown. -/
def endState (code : EStateM ε σ α) (s : σ) : σ :=
  match code.run s with
  | .ok _ s' => s'
  | .error _ s' => s'

variable {code : EStateM ε σ α} {s s' : σ} {a : α} {e : ε}

theorem captured_of_ok (h : code.run s = .ok a s') :
    (captured code).run s = .ok (.ok a) s' := by
  simp only [captured, run_tryCatch, EStateM.run_bind, h]
  rfl

theorem captured_of_error (h : code.run s = .error e s') :
    (captured code).run s = .ok (.error e) s' := by
  simp only [captured, run_tryCatch, EStateM.run_bind, h]
  rfl

theorem endState_of_ok (h : code.run s = .ok a s') : endState code s = s' := by
  rw [endState, h]

theorem endState_of_error (h : code.run s = .error e s') :
    endState code s = s' := by
  rw [endState, h]

theorem endState_bind (h : code.run s = .ok a s')
    (f : α → EStateM ε σ β) : endState (code >>= f) s = endState (f a) s' := by
  simp only [endState, EStateM.run_bind, h]

/-- What follows code without changing the state does not move its end. -/
theorem endState_bind_of_keeps {f : α → EStateM ε σ β}
    (hf : ∀ a s, endState (f a) s = s) :
    endState (code >>= f) s = endState code s := by
  rcases h : code.run s with ⟨a, s'⟩ | ⟨e, s'⟩
  · rw [endState_bind h, hf, endState_of_ok h]
  · simp only [endState, EStateM.run_bind, h]

theorem run_onThrow_of_ok {f : σ → σ} (h : code.run s = .ok a s') :
    (onThrow f code).run s = .ok a s' := by
  rw [onThrow, run_tryCatch, h]

theorem run_onThrow_of_error {f : σ → σ} (h : code.run s = .error e s') :
    (onThrow f code).run s = .error e (f s') := by
  rw [onThrow, run_tryCatch, h]
  rfl

theorem endState_onThrow (f : σ → σ) (code : EStateM ε σ α) (s : σ) :
    endState (onThrow f code) s = endState code s ∨
      endState (onThrow f code) s = f (endState code s) := by
  rcases h : code.run s with ⟨a, s'⟩ | ⟨e, s'⟩
  · left
    rw [endState_of_ok h, endState_of_ok (run_onThrow_of_ok h)]
  · right
    rw [endState_of_error h, endState_of_error (run_onThrow_of_error h)]

theorem captured_congr {code' : EStateM ε σ α}
    (h : code.run s = code'.run s') :
    (captured code).run s = (captured code').run s' := by
  simp only [captured, run_tryCatch, EStateM.run_bind, h]

/-- Code that ends in a constant gives that constant, or throws. -/
theorem exists_captured_constant (code : EStateM ε σ α) (b : β) (s : σ) :
    ∃ outcome, (outcome = .ok b ∨ ∃ e, outcome = .error e) ∧
      (captured (do
        let _ ← code
        pure b)).run s = .ok outcome (endState code s) := by
  rcases h : code.run s with ⟨a, s'⟩ | ⟨e, s'⟩
  · refine ⟨.ok b, .inl rfl, ?_⟩
    rw [endState_of_ok h]
    apply captured_of_ok
    rw [EStateM.run_bind, h]
    rfl
  · refine ⟨.error e, .inr ⟨e, rfl⟩, ?_⟩
    rw [endState_of_error h]
    apply captured_of_error
    rw [EStateM.run_bind, h]

/-- What follows captured code begins where the code ended. -/
theorem exists_captured (code : EStateM ε σ α) (s : σ) :
    ∃ outcome, (captured code).run s = .ok outcome (endState code s) := by
  rcases h : code.run s with ⟨a, s'⟩ | ⟨e, s'⟩
  · exact ⟨.ok a, by rw [captured_of_ok h, endState_of_ok h]⟩
  · exact ⟨.error e, by rw [captured_of_error h, endState_of_error h]⟩

end Fiber.Support
