import Fiber.Support.Machine

/-!
# Simulations between machines

One machine simulates another if related states stay related when both take a
step, the second on the translated action, and both steps are answered alike.
Then whole runs are answered alike.
-/

namespace Fiber.Support

universe u v w

namespace Machine

variable {σ : Type u} {α : Type v} {ρ ρ' : Type w} (M : Machine σ α ρ)
  (g : ρ → ρ')

/-- The machine whose replies are seen through `g`. -/
def mapReply : Machine σ α ρ' where
  step s a := ((M.step s a).1, g (M.step s a).2)

theorem exec_mapReply (s : σ) (as : List α) :
    (M.mapReply g).exec s as = M.exec s as := by
  induction as generalizing s with
  | nil => rfl
  | cons a as ih => exact ih (M.step s a).1

theorem replies_mapReply (s : σ) (as : List α) :
    ((M.mapReply g).trace s as).map Event.reply =
      (M.trace s as).map fun e => g e.reply := by
  induction as generalizing s with
  | nil => rfl
  | cons a as ih => exact congrArg (g (M.step s a).2 :: ·) (ih (M.step s a).1)

end Machine

variable {σ τ : Type u} {α β : Type v} {ρ : Type w}

/-- From states related by `R`, the machines answer alike and stay related. -/
structure Simulates (M : Machine σ α ρ) (N : Machine τ β ρ) (f : α → β)
    (R : σ → τ → Prop) : Prop where
  state : ∀ {s t} a, R s t → R (M.step s a).1 (N.step t (f a)).1
  reply : ∀ {s t} a, R s t → (M.step s a).2 = (N.step t (f a)).2

namespace Simulates

variable {M : Machine σ α ρ} {N : Machine τ β ρ} {f : α → β}
  {R : σ → τ → Prop} {s : σ} {t : τ}

theorem exec (h : Simulates M N f R) (hst : R s t) (as : List α) :
    R (M.exec s as) (N.exec t (as.map f)) := by
  induction as generalizing s t with
  | nil => exact hst
  | cons a as ih => exact ih (h.state a hst)

theorem replies (h : Simulates M N f R) (hst : R s t) (as : List α) :
    (M.trace s as).map Event.reply =
      (N.trace t (as.map f)).map Event.reply := by
  induction as generalizing s t with
  | nil => rfl
  | cons a as ih =>
      simp only [List.map_cons, Machine.trace_cons, Machine.event_reply]
      rw [h.reply a hst, ih (h.state a hst)]

end Simulates
end Fiber.Support
