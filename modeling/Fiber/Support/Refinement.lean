import Fiber.Support.Outcome

/-!
# Code and its model

Code that may throw runs over concrete states, and a model of it over abstract
ones.  The two match from a pair of states if they end alike, with the same
value or with the same exception, in states that are related again.  The rules
follow the way such code is put together.
-/

namespace Fiber.Support

universe u

variable {ε σ τ α β : Type u}

/-- Two ends of code that nobody can tell apart, in related states. -/
inductive Agree (R : σ → τ → Prop) :
    EStateM.Result ε σ α → EStateM.Result ε τ α → Prop
  | ok {s : σ} {t : τ} (a : α) (h : R s t) : Agree R (.ok a s) (.ok a t)
  | error {s : σ} {t : τ} (e : ε) (h : R s t) :
      Agree R (.error e s) (.error e t)

/-- From `s` and `t`, the code and the model end alike. -/
def Matches (R : σ → τ → Prop) (code : EStateM ε σ α) (s : σ)
    (model : EStateM ε τ α) (t : τ) : Prop :=
  Agree R (code.run s) (model.run t)

namespace Matches

variable {R : σ → τ → Prop} {s s' : σ} {t t' : τ}
  {code code' : EStateM ε σ α} {model model' : EStateM ε τ α}

theorem pure (a : α) (h : R s t) :
    Matches R (Pure.pure a : EStateM ε σ α) s (Pure.pure a) t :=
  .ok a h

theorem throw (e : ε) (h : R s t) :
    Matches R (MonadExcept.throw e : EStateM ε σ α) s
      (MonadExcept.throw e) t :=
  .error e h

theorem congr (hcode : code.run s = code'.run s')
    (hmodel : model.run t = model'.run t')
    (h : Matches R code' s' model' t') : Matches R code s model t := by
  rw [Matches, hcode, hmodel]
  exact h

theorem mono {S : σ → τ → Prop} (hRS : ∀ s t, R s t → S s t)
    (h : Matches R code s model t) : Matches S code s model t := by
  revert h
  rw [Matches, Matches]
  generalize code.run s = ended
  generalize model.run t = ended'
  intro h
  cases h with
  | ok a hrel => exact .ok a (hRS _ _ hrel)
  | error e hrel => exact .error e (hRS _ _ hrel)

/-- However they end, they end in related states. -/
theorem endState (h : Matches R code s model t) :
    R (endState code s) (Support.endState model t) := by
  revert h
  rw [Matches, Support.endState, Support.endState]
  generalize code.run s = ended
  generalize model.run t = ended'
  intro h
  cases h with
  | ok a hrel => exact hrel
  | error e hrel => exact hrel

theorem bind {f : α → EStateM ε σ β} {g : α → EStateM ε τ β}
    (h : Matches R code s model t)
    (hnext : ∀ a s t, R s t → Matches R (f a) s (g a) t) :
    Matches R (code >>= f) s (model >>= g) t := by
  rw [Matches, EStateM.run_bind, EStateM.run_bind]
  revert h
  rw [Matches]
  generalize code.run s = ended
  generalize model.run t = ended'
  intro h
  cases h with
  | ok a hrel => exact hnext a _ _ hrel
  | error e hrel => exact .error e hrel

/-- A caller that catches sees the same outcome. -/
theorem captured (h : Matches R code s model t) :
    Matches R (captured code) s (Support.captured model) t := by
  revert h
  rw [Matches]
  rcases hcode : code.run s with ⟨a, s'⟩ | ⟨e, s'⟩ <;>
    rcases hmodel : model.run t with ⟨b, t'⟩ | ⟨e', t'⟩ <;>
    intro h
  · cases h with
    | ok a hrel =>
        rw [Matches, captured_of_ok hcode, captured_of_ok hmodel]
        exact .ok _ hrel
  · nomatch h
  · nomatch h
  · cases h with
    | error e hrel =>
        rw [Matches, captured_of_error hcode, captured_of_error hmodel]
        exact .ok _ hrel

/-- What the code does to its state when it throws, the model need not do. -/
theorem onThrow {f : σ → σ} (hf : ∀ s t, R s t → R (f s) t)
    (h : Matches R code s model t) :
    Matches R (onThrow f code) s model t := by
  revert h
  rw [Matches, Matches]
  rcases hcode : code.run s with ⟨a, s'⟩ | ⟨e, s'⟩
  · rw [run_onThrow_of_ok hcode]
    exact id
  · rw [run_onThrow_of_error hcode]
    generalize model.run t = ended'
    intro h
    cases h with
    | error e hrel => exact .error e (hf _ _ hrel)

/-- A step of the code alone. -/
theorem step_code {a : β} {f : β → EStateM ε σ α} {first : EStateM ε σ β}
    (hfirst : first.run s = .ok a s') (h : Matches R (f a) s' model t) :
    Matches R (first >>= f) s model t := by
  refine congr ?_ rfl h
  rw [EStateM.run_bind, hfirst]

/-- A step of the model alone. -/
theorem step_model {a : β} {f : β → EStateM ε τ α} {first : EStateM ε τ β}
    (hfirst : first.run t = .ok a t') (h : Matches R code s (f a) t') :
    Matches R code s (first >>= f) t := by
  refine congr rfl ?_ h
  rw [EStateM.run_bind, hfirst]

end Matches
end Fiber.Support
