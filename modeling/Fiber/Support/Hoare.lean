import Mathlib.Logic.Basic

/-!
# Triples for code that may throw

A triple for code over a state gives a precondition, a postcondition for the
case that the code returns, and one for the case that it throws.  The rules
below follow the way such code is put together.
-/

namespace Fiber.Support

universe u

variable {ε σ α β : Type u}

/-- From every state in `P` the code returns into `Q` or throws into `E`. -/
def Triple (P : σ → Prop) (code : EStateM ε σ α) (Q : α → σ → Prop)
    (E : ε → σ → Prop) : Prop :=
  ∀ s, P s →
    match code.run s with
    | .ok a s' => Q a s'
    | .error e s' => E e s'

variable {P : σ → Prop} {Q : α → σ → Prop} {E : ε → σ → Prop}

theorem triple_pure {a : α} (h : ∀ s, P s → Q a s) :
    Triple P (pure a : EStateM ε σ α) Q E :=
  h

theorem triple_throw {e : ε} (h : ∀ s, P s → E e s) :
    Triple P (throw e : EStateM ε σ α) Q E :=
  h

theorem triple_modify {f : σ → σ} {Q : PUnit → σ → Prop}
    (h : ∀ s, P s → Q ⟨⟩ (f s)) :
    Triple P (modify f : EStateM ε σ PUnit) Q E :=
  h

theorem triple_set {s : σ} {Q : PUnit → σ → Prop}
    (h : ∀ t, P t → Q ⟨⟩ s) : Triple P (set s : EStateM ε σ PUnit) Q E :=
  h

theorem triple_get {f : σ → EStateM ε σ α}
    (h : ∀ s, P s → Triple (· = s) (f s) Q E) :
    Triple P (get >>= f) Q E := by
  intro s hs
  exact h s hs s rfl

theorem triple_bind {code : EStateM ε σ α} {f : α → EStateM ε σ β}
    {S : β → σ → Prop} (hcode : Triple P code Q E)
    (hf : ∀ a, Triple (Q a) (f a) S E) : Triple P (code >>= f) S E := by
  intro s hs
  have hfirst := hcode s hs
  change match EStateM.bind code f s with
    | .ok b s' => S b s'
    | .error e s' => E e s'
  unfold EStateM.bind
  cases hrun : code s with
  | ok a s' =>
      rw [EStateM.run, hrun] at hfirst
      exact hf a s' hfirst
  | error e s' =>
      rw [EStateM.run, hrun] at hfirst
      exact hfirst

end Fiber.Support
