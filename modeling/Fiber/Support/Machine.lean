import Mathlib.Data.List.Basic

/-!
# Deterministic machines and their traces

A machine consumes one action at a time and answers each of them.  This module
fixes the vocabulary of finite runs: the state a run ends in, the events it
passes through, the invariants its steps keep, and the removal of actions that
change nothing.  It is parameterized by the types of states, actions and
replies, and names nothing of the system that is modelled.
-/

namespace Fiber.Support

universe u v w

/-- A deterministic machine: an action changes the state and is answered. -/
structure Machine (σ : Type u) (α : Type v) (ρ : Type w) where
  step : σ → α → σ × ρ

/-- One step of a run, with the states on its two sides. -/
structure Event (σ : Type u) (α : Type v) (ρ : Type w) where
  before : σ
  action : α
  reply : ρ
  after : σ

namespace Machine

variable {σ : Type u} {α : Type v} {ρ : Type w} (M : Machine σ α ρ)

/-- The event of performing `a` in state `s`. -/
def event (s : σ) (a : α) : Event σ α ρ where
  before := s
  action := a
  reply := (M.step s a).2
  after := (M.step s a).1

/-- The state reached by performing the actions in order. -/
def exec : σ → List α → σ
  | s, [] => s
  | s, a :: as => exec (M.step s a).1 as

/-- The events of a run, oldest first. -/
def trace : σ → List α → List (Event σ α ρ)
  | _, [] => []
  | s, a :: as => M.event s a :: trace (M.step s a).1 as

/-- The states a run passes through, its first one included. -/
def visited (s : σ) (as : List α) : List σ :=
  s :: (M.trace s as).map Event.after

@[simp] theorem event_before (s : σ) (a : α) : (M.event s a).before = s := rfl

@[simp] theorem event_action (s : σ) (a : α) : (M.event s a).action = a := rfl

@[simp] theorem event_reply (s : σ) (a : α) :
    (M.event s a).reply = (M.step s a).2 := rfl

@[simp] theorem event_after (s : σ) (a : α) :
    (M.event s a).after = (M.step s a).1 := rfl

@[simp] theorem exec_nil (s : σ) : M.exec s [] = s := rfl

@[simp] theorem exec_cons (s : σ) (a : α) (as : List α) :
    M.exec s (a :: as) = M.exec (M.step s a).1 as := rfl

theorem exec_append (s : σ) (as bs : List α) :
    M.exec s (as ++ bs) = M.exec (M.exec s as) bs := by
  induction as generalizing s with
  | nil => rfl
  | cons a as ih => exact ih (M.step s a).1

@[simp] theorem trace_nil (s : σ) : M.trace s [] = [] := rfl

@[simp] theorem trace_cons (s : σ) (a : α) (as : List α) :
    M.trace s (a :: as) = M.event s a :: M.trace (M.step s a).1 as := rfl

/-- A run has one event for each of its actions. -/
theorem map_action_trace (s : σ) (as : List α) :
    (M.trace s as).map Event.action = as := by
  induction as generalizing s with
  | nil => rfl
  | cons a as ih => rw [trace_cons, List.map_cons, ih, event_action]

/-- Every event of a run happens at the end of one of its prefixes. -/
theorem mem_trace_iff {s : σ} {as : List α} {e : Event σ α ρ} :
    e ∈ M.trace s as ↔
      ∃ front a rest, as = front ++ a :: rest ∧
        e = M.event (M.exec s front) a := by
  induction as generalizing s with
  | nil => simp
  | cons b as ih =>
      rw [trace_cons, List.mem_cons, ih]
      constructor
      · rintro (rfl | ⟨front, a, rest, rfl, rfl⟩)
        · exact ⟨[], b, as, rfl, rfl⟩
        · exact ⟨b :: front, a, rest, rfl, rfl⟩
      · rintro ⟨front, a, rest, hsplit, rfl⟩
        cases front with
        | nil =>
            obtain ⟨rfl, rfl⟩ := List.cons.inj hsplit
            exact Or.inl rfl
        | cons c front =>
            obtain ⟨rfl, rfl⟩ := List.cons.inj hsplit
            exact Or.inr ⟨front, a, rest, rfl, rfl⟩

theorem mem_visited_iff {s : σ} {as : List α} {t : σ} :
    t ∈ M.visited s as ↔ ∃ front, front <+: as ∧ t = M.exec s front := by
  constructor
  · intro ht
    rcases List.mem_cons.mp ht with rfl | ht
    · exact ⟨[], List.nil_prefix, rfl⟩
    · obtain ⟨e, he, rfl⟩ := List.mem_map.mp ht
      obtain ⟨front, a, rest, rfl, rfl⟩ := M.mem_trace_iff.mp he
      refine ⟨front ++ [a], ⟨rest, by simp⟩, ?_⟩
      simp [exec_append]
  · rintro ⟨front, ⟨rest, rfl⟩, rfl⟩
    rcases List.eq_nil_or_concat front with rfl | ⟨init, a, rfl⟩
    · exact List.mem_cons_self
    · refine List.mem_cons_of_mem _ (List.mem_map.mpr
        ⟨M.event (M.exec s init) a, M.mem_trace_iff.mpr
          ⟨init, a, rest, by simp, rfl⟩, ?_⟩)
      simp [exec_append]

/-! ## Invariants -/

/-- Every step keeps `I`. -/
def Preserves (I : σ → Prop) : Prop :=
  ∀ s a, I s → I (M.step s a).1

variable {M}

theorem Preserves.exec {I : σ → Prop} (h : M.Preserves I)
    {s : σ} (hs : I s) (as : List α) : I (M.exec s as) := by
  induction as generalizing s with
  | nil => exact hs
  | cons a as ih => exact ih (h s a hs)

/-- An event of a run that starts in `I` is a step made from a state in `I`. -/
theorem Preserves.event_of_mem {I : σ → Prop} (h : M.Preserves I)
    {s : σ} (hs : I s) {as : List α} {e : Event σ α ρ}
    (he : e ∈ M.trace s as) :
    ∃ t a, a ∈ as ∧ I t ∧ e = M.event t a := by
  obtain ⟨front, a, rest, rfl, rfl⟩ := M.mem_trace_iff.mp he
  exact ⟨M.exec s front, a, by simp, h.exec hs front, rfl⟩

/-- A reflexive and transitive relation that holds across every step from `I`
holds across every run from `I`. -/
theorem Preserves.exec_rel {I : σ → Prop} (h : M.Preserves I)
    {R : σ → σ → Prop} (hrefl : ∀ s, R s s)
    (htrans : ∀ s t r, R s t → R t r → R s r)
    (hstep : ∀ s a, I s → R s (M.step s a).1)
    {s : σ} (hs : I s) (as : List α) : R s (M.exec s as) := by
  induction as generalizing s with
  | nil => exact hrefl s
  | cons a as ih =>
      exact htrans _ _ _ (hstep s a hs) (ih (h s a hs))

/-! ## Removing actions that change nothing -/

variable (M) (skip : σ → α → Prop) [∀ s a, Decidable (skip s a)]

/-- The actions of a run that are not skipped in the state they meet. -/
def prune : σ → List α → List α
  | _, [] => []
  | s, a :: as =>
      if skip s a then prune (M.step s a).1 as
      else a :: prune (M.step s a).1 as

variable {M} {skip}

theorem exec_prune (hskip : ∀ s a, skip s a → (M.step s a).1 = s)
    (s : σ) (as : List α) :
    M.exec s (M.prune skip s as) = M.exec s as := by
  induction as generalizing s with
  | nil => rfl
  | cons a as ih =>
      by_cases h : skip s a
      · have hs := hskip s a h
        simp only [prune, if_pos h, exec_cons]
        rw [hs]
        exact ih s
      · simp only [prune, if_neg h, exec_cons]
        exact ih _

/-- Pruning removes exactly the events of the skipped actions: every other
event keeps its states and its reply. -/
theorem trace_prune (hskip : ∀ s a, skip s a → (M.step s a).1 = s)
    (s : σ) (as : List α) :
    M.trace s (M.prune skip s as) =
      (M.trace s as).filter (fun e => ¬ skip e.before e.action) := by
  induction as generalizing s with
  | nil => rfl
  | cons a as ih =>
      by_cases h : skip s a
      · have hs := hskip s a h
        have hrest := ih s
        simp only [prune, if_pos h, trace_cons]
        rw [hs, hrest, List.filter_cons_of_neg (by simp [h])]
      · simp only [prune, if_neg h, trace_cons]
        rw [ih, List.filter_cons_of_pos (by simp [h])]

end Machine
end Fiber.Support
