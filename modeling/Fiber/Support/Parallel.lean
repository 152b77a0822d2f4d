import Fiber.Support.Machine
import Mathlib.Logic.Function.Basic

/-!
# Machines side by side

Copies of one machine run side by side, and an action names the copy it is for.
What a copy sees of such a run, whatever the interleaving, is a run of its own.
-/

namespace Fiber.Support

universe u v w

variable {σ : Type u} {α : Type v} {ρ : Type w} {ι : Type} [DecidableEq ι]

namespace Machine

/-- One copy of the machine for each index. -/
def parallel (M : Machine σ α ρ) (ι : Type) [DecidableEq ι] :
    Machine (ι → σ) (ι × α) ρ where
  step s a :=
    let done := M.step (s a.1) a.2
    (Function.update s a.1 done.1, done.2)

/-- The actions for one copy. -/
def own (i : ι) (as : List (ι × α)) : List α :=
  as.filterMap fun a => if a.1 = i then some a.2 else none

/-- What an event is for one copy. -/
def ownEvent (i : ι) (e : Event (ι → σ) (ι × α) ρ) : Option (Event σ α ρ) :=
  if e.action.1 = i then some ⟨e.before i, e.action.2, e.reply, e.after i⟩
  else none

/-- The events of one copy. -/
def ownEvents (i : ι) (events : List (Event (ι → σ) (ι × α) ρ)) :
    List (Event σ α ρ) :=
  events.filterMap (ownEvent i)

variable {M : Machine σ α ρ} {i : ι} {s : ι → σ}

theorem own_cons_self (a : α) (as : List (ι × α)) :
    own i ((i, a) :: as) = a :: own i as := by
  simp [own]

theorem own_cons_of_ne {j : ι} (h : j ≠ i) (a : α) (as : List (ι × α)) :
    own i ((j, a) :: as) = own i as := by
  simp [own, h]

theorem own_append (as bs : List (ι × α)) :
    own i (as ++ bs) = own i as ++ own i bs :=
  List.filterMap_append

theorem parallel_step_self (s : ι → σ) (a : α) :
    ((M.parallel ι).step s (i, a)).1 i = (M.step (s i) a).1 :=
  Function.update_self ..

theorem parallel_step_of_ne {j : ι} (h : j ≠ i) (s : ι → σ) (a : α) :
    ((M.parallel ι).step s (j, a)).1 i = s i :=
  Function.update_of_ne h.symm ..

theorem exec_parallel (s : ι → σ) (as : List (ι × α)) (i : ι) :
    (M.parallel ι).exec s as i = M.exec (s i) (own i as) := by
  induction as generalizing s with
  | nil => rfl
  | cons a as ih =>
      obtain ⟨j, a⟩ := a
      rw [exec_cons, ih]
      by_cases hj : j = i
      · subst j
        rw [parallel_step_self, own_cons_self, exec_cons]
      · rw [parallel_step_of_ne hj, own_cons_of_ne hj]

theorem ownEvent_event_self (s : ι → σ) (a : α) :
    ownEvent i ((M.parallel ι).event s (i, a)) = some (M.event (s i) a) := by
  rw [ownEvent, event_action, if_pos rfl, event_after, parallel_step_self]
  rfl

theorem ownEvent_event_of_ne {j : ι} (h : j ≠ i) (s : ι → σ) (a : α) :
    ownEvent i ((M.parallel ι).event s (j, a)) = none :=
  if_neg h

theorem ownEvents_trace_parallel (s : ι → σ) (as : List (ι × α)) (i : ι) :
    ownEvents i ((M.parallel ι).trace s as) = M.trace (s i) (own i as) := by
  induction as generalizing s with
  | nil => rfl
  | cons a as ih =>
      obtain ⟨j, a⟩ := a
      have hrest := ih ((M.parallel ι).step s (j, a)).1
      rw [trace_cons, ownEvents]
      by_cases hj : j = i
      · subst j
        rw [parallel_step_self] at hrest
        rw [own_cons_self, trace_cons, ← hrest,
          List.filterMap_cons_some (ownEvent_event_self s a)]
        rfl
      · rw [parallel_step_of_ne hj] at hrest
        rw [own_cons_of_ne hj, ← hrest,
          List.filterMap_cons_none (ownEvent_event_of_ne hj s a)]
        rfl

end Machine
end Fiber.Support
