import Fiber.Support.Machine

/-!
# Hidden actions

Some actions of a machine are hidden from an observer, who knows the state up
to a relation.  If a hidden action leaves the observer where it was, and every
other action takes related states to related ones and is answered alike in
both, then a run can be purged of its hidden actions: what the observer sees
stays the same.
-/

namespace Fiber.Support

universe u v w

variable {σ : Type u} {α : Type v} {ρ : Type w}

/-- `R` relates the states that an observer cannot tell apart. -/
structure Unwinding (M : Machine σ α ρ) (hidden : α → Prop)
    (R : σ → σ → Prop) : Prop where
  hidden_step : ∀ {s t} a, hidden a → R s t → R (M.step s a).1 t
  state : ∀ {s t} a, ¬ hidden a → R s t → R (M.step s a).1 (M.step t a).1
  reply : ∀ {s t} a, ¬ hidden a → R s t → (M.step s a).2 = (M.step t a).2

namespace Unwinding

variable {M : Machine σ α ρ} {hidden : α → Prop} [DecidablePred hidden]
  {R : σ → σ → Prop} {s t : σ}

/-- The run without its hidden actions. -/
def purge (hidden : α → Prop) [DecidablePred hidden] (as : List α) : List α :=
  as.filter fun a => ¬ hidden a

theorem purge_cons_of_hidden {a : α} (ha : hidden a) (as : List α) :
    purge hidden (a :: as) = purge hidden as := by
  simp [purge, ha]

theorem purge_cons_of_not_hidden {a : α} (ha : ¬ hidden a) (as : List α) :
    purge hidden (a :: as) = a :: purge hidden as := by
  simp [purge, ha]

/-- What the observer sees of a run: the other actions with their replies. -/
def seen (M : Machine σ α ρ) (hidden : α → Prop) [DecidablePred hidden]
    (s : σ) (as : List α) : List (α × ρ) :=
  ((M.trace s as).filter fun e => ¬ hidden e.action).map
    fun e => (e.action, e.reply)

theorem seen_cons_of_hidden {a : α} (ha : hidden a) (s : σ) (as : List α) :
    seen M hidden s (a :: as) = seen M hidden (M.step s a).1 as := by
  simp [seen, ha]

theorem seen_cons_of_not_hidden {a : α} (ha : ¬ hidden a) (s : σ)
    (as : List α) :
    seen M hidden s (a :: as) =
      (a, (M.step s a).2) :: seen M hidden (M.step s a).1 as := by
  simp [seen, ha]

/-- In a purged run all is seen. -/
theorem seen_purged (s : σ) (as : List α) :
    seen M hidden s (purge hidden as) =
      (M.trace s (purge hidden as)).map fun e => (e.action, e.reply) := by
  rw [seen, List.filter_eq_self.mpr]
  intro e he
  have haction : e.action ∈ purge hidden as := by
    rw [← M.map_action_trace s (purge hidden as)]
    exact List.mem_map_of_mem he
  exact (List.mem_filter.mp haction).2

theorem exec_purge (h : Unwinding M hidden R) (hst : R s t) (as : List α) :
    R (M.exec s as) (M.exec t (purge hidden as)) := by
  induction as generalizing s t with
  | nil => exact hst
  | cons a as ih =>
      by_cases ha : hidden a
      · rw [purge_cons_of_hidden ha]
        exact ih (h.hidden_step a ha hst)
      · rw [purge_cons_of_not_hidden ha]
        exact ih (h.state a ha hst)

/-- Nothing that is hidden influences what is seen. -/
theorem seen_purge (h : Unwinding M hidden R) (hst : R s t) (as : List α) :
    seen M hidden s as = seen M hidden t (purge hidden as) := by
  induction as generalizing s t with
  | nil => rfl
  | cons a as ih =>
      by_cases ha : hidden a
      · rw [seen_cons_of_hidden ha, purge_cons_of_hidden ha]
        exact ih (h.hidden_step a ha hst)
      · rw [seen_cons_of_not_hidden ha, purge_cons_of_not_hidden ha,
          seen_cons_of_not_hidden ha, h.reply a ha hst]
        exact congrArg _ (ih (h.state a ha hst))

end Unwinding
end Fiber.Support
