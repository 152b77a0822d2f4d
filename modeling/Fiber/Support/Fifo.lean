import Mathlib.Data.List.Basic

/-!
# First-in first-out links

A link carries values from a sender to a receiver.  `Fifo` is a link together
with its history: what was sent into it, what was taken out of it, and what is
still pending.  That the taken values followed by the pending ones are the sent
ones is part of the structure, so it holds in every state a link can reach.
-/

namespace Fiber.Support

universe u

/-- What can happen to a link. -/
inductive FifoStep (β : Type u)
  | send (x : β)
  | receive
  | idle

/-- A link with its history, oldest value first. -/
structure Fifo (β : Type u) where
  sent : List β
  taken : List β
  pending : List β
  balanced : taken ++ pending = sent

namespace Fifo

variable {β : Type u}

/-- A link that nothing has been taken from yet. -/
def start (pending : List β) : Fifo β where
  sent := pending
  taken := []
  pending := pending
  balanced := rfl

/-- A send appends at the tail; a receive takes the head, if there is one. -/
def apply (f : Fifo β) : FifoStep β → Fifo β
  | .send x =>
      { sent := f.sent ++ [x]
        taken := f.taken
        pending := f.pending ++ [x]
        balanced := by rw [← List.append_assoc, f.balanced] }
  | .receive =>
      { sent := f.sent
        taken := f.taken ++ f.pending.take 1
        pending := f.pending.drop 1
        balanced := by
          rw [List.append_assoc, List.take_append_drop, f.balanced] }
  | .idle => f

def run (f : Fifo β) (steps : List (FifoStep β)) : Fifo β :=
  steps.foldl apply f

@[simp] theorem run_nil (f : Fifo β) : f.run [] = f := rfl

@[simp] theorem run_cons (f : Fifo β) (step : FifoStep β)
    (steps : List (FifoStep β)) :
    f.run (step :: steps) = (f.apply step).run steps := rfl

/-! ## What a run sends and receives -/

/-- The values that the steps send. -/
def sends (steps : List (FifoStep β)) : List β :=
  steps.filterMap fun
    | .send x => some x
    | .receive | .idle => none

/-- The number of receives. -/
def receives (steps : List (FifoStep β)) : ℕ :=
  steps.countP fun
    | .receive => true
    | .send _ | .idle => false

theorem receives_receive (steps : List (FifoStep β)) :
    receives (.receive :: steps) = receives steps + 1 :=
  List.countP_cons_of_pos rfl

theorem sent_run (f : Fifo β) (steps : List (FifoStep β)) :
    (f.run steps).sent = f.sent ++ sends steps := by
  induction steps generalizing f with
  | nil => exact (List.append_nil _).symm
  | cons step steps ih =>
      rw [run_cons, ih]
      cases step with
      | send x => exact List.append_assoc ..
      | receive | idle => rfl

theorem taken_prefix_taken_run (f : Fifo β) (steps : List (FifoStep β)) :
    f.taken <+: (f.run steps).taken := by
  induction steps generalizing f with
  | nil => exact List.prefix_rfl
  | cons step steps ih =>
      cases step with
      | send x => exact ih (f.apply (.send x))
      | receive =>
          exact (List.prefix_append f.taken _).trans (ih (f.apply .receive))
      | idle => exact ih f

/-- After as many receives as values were pending, all that had been sent by
then has been taken. -/
theorem sent_prefix_taken_run (f : Fifo β) (steps : List (FifoStep β))
    (h : f.pending.length ≤ receives steps) :
    f.sent <+: (f.run steps).taken := by
  suffices hgeneral : ∀ (steps : List (FifoStep β)) (f : Fifo β)
      (front : List β), front.length ≤ receives steps →
      front <+: f.pending → f.taken ++ front <+: (f.run steps).taken by
    rw [← f.balanced]
    exact hgeneral steps f f.pending h List.prefix_rfl
  intro steps
  induction steps with
  | nil =>
      intro f front hfront _
      obtain rfl := List.eq_nil_of_length_eq_zero (Nat.le_zero.mp hfront)
      rw [List.append_nil]
      exact List.prefix_rfl
  | cons step steps ih =>
      intro f front hfront hpending
      cases step with
      | send x =>
          exact ih (f.apply (.send x)) front hfront
            (hpending.trans (List.prefix_append ..))
      | idle => exact ih f front hfront hpending
      | receive =>
          cases front with
          | nil =>
              rw [List.append_nil]
              exact f.taken_prefix_taken_run (.receive :: steps)
          | cons x front =>
              obtain ⟨rest, hrest⟩ := hpending
              rw [receives_receive] at hfront
              have hstep := ih (f.apply .receive) front
                (Nat.le_of_succ_le_succ hfront)
                ⟨rest, by simp [apply, ← hrest]⟩
              rw [run_cons]
              simpa [apply, ← hrest] using hstep

end Fifo
end Fiber.Support
