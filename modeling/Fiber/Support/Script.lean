import Fiber.Support.Machine
import Mathlib.Data.Nat.Notation
import Mathlib.Logic.Function.Basic

/-!
# Scripted conversations

Many conversations go on at once, and all of them follow one script: a list of
phases.  A step of the machine takes at most one conversation to its next phase
and leaves the others where they are.  Then, whatever the interleaving, the
history of every conversation is a beginning of the script, and how far it has
come can be read off the state.
-/

namespace Fiber.Support

universe u v w

variable {σ : Type u} {α : Type v} {ρ : Type w} {ι φ : Type}

/-- What a step may do to the progress of the conversations: nothing, or the
one that it belongs to moves on by the phase that is next. -/
inductive Advances [DecidableEq ι] (script : List φ) (before : ι → ℕ) :
    Option (ι × φ) → (ι → ℕ) → Prop
  | silent : Advances script before none before
  | next {i : ι} {phase : φ} (h : script[before i]? = some phase) :
      Advances script before (some (i, phase))
        (Function.update before i (before i + 1))

variable [DecidableEq ι]

theorem Advances.next_of_eq {script : List φ} {before : ι → ℕ} {i : ι} {n : ℕ}
    {phase : φ} (hn : before i = n) (h : script[n]? = some phase) :
    Advances script before (some (i, phase))
      (Function.update before i (n + 1)) := by
  subst n
  exact .next h

/-- The steps of `M` follow `script`.  `said` tells which conversation an event
belongs to and which phase it is; `progress` counts the phases behind a
conversation. -/
structure Scripted (M : Machine σ α ρ) (I : σ → Prop) (script : List φ)
    (said : Event σ α ρ → Option (ι × φ)) (progress : σ → ι → ℕ) : Prop where
  preserved : M.Preserves I
  advances : ∀ {s} a, I s → Advances script (progress s)
    (said (M.event s a)) (progress (M.step s a).1)

/-- The phase that an event is for the conversation `i`. -/
def phaseOf (said : Event σ α ρ → Option (ι × φ)) (i : ι) (e : Event σ α ρ) :
    Option φ :=
  match said e with
  | some (j, phase) => if j = i then some phase else none
  | none => none

/-- The phases of a conversation, in the order of the run. -/
def conversation (said : Event σ α ρ → Option (ι × φ)) (i : ι)
    (events : List (Event σ α ρ)) : List φ :=
  events.filterMap (phaseOf said i)

namespace Scripted

variable {M : Machine σ α ρ} {I : σ → Prop} {script : List φ}
  {said : Event σ α ρ → Option (ι × φ)} {progress : σ → ι → ℕ} {s : σ}

/-- One step adds nothing to a conversation, or its next phase. -/
theorem step_cases (h : Scripted M I script said progress) (hs : I s) (a : α)
    (i : ι) :
    phaseOf said i (M.event s a) = none ∧
        progress (M.step s a).1 i = progress s i ∨
      ∃ phase, phaseOf said i (M.event s a) = some phase ∧
        script[progress s i]? = some phase ∧
        progress (M.step s a).1 i = progress s i + 1 := by
  have hadvances := h.advances a hs
  generalize hafter : progress (M.step s a).1 = after at hadvances ⊢
  rcases hsaid : said (M.event s a) with _ | ⟨j, phase⟩
  · rw [hsaid] at hadvances
    cases hadvances
    refine .inl ⟨?_, rfl⟩
    rw [phaseOf, hsaid]
  · rw [hsaid] at hadvances
    cases hadvances with
    | next hphase =>
        by_cases hj : j = i
        · subst j
          refine .inr ⟨phase, ?_, hphase, Function.update_self ..⟩
          rw [phaseOf, hsaid]
          exact if_pos rfl
        · refine .inl ⟨?_, Function.update_of_ne (Ne.symm hj) ..⟩
          rw [phaseOf, hsaid]
          exact if_neg hj

theorem progress_le (h : Scripted M I script said progress) (hs : I s)
    (as : List α) (i : ι) : progress s i ≤ progress (M.exec s as) i := by
  induction as generalizing s with
  | nil => exact Nat.le_refl _
  | cons a as ih =>
      have hrest := ih (h.preserved s a hs)
      rcases h.step_cases hs a i with ⟨-, hstep⟩ | ⟨-, -, -, hstep⟩
      · rw [hstep] at hrest
        exact hrest
      · rw [hstep] at hrest
        exact Nat.le_of_succ_le hrest

/-- What is behind a conversation and what it says in a run make up the
beginning of the script that is behind it in the end. -/
theorem take_append_conversation (h : Scripted M I script said progress)
    (hs : I s) (as : List α) (i : ι) :
    script.take (progress s i) ++ conversation said i (M.trace s as) =
      script.take (progress (M.exec s as) i) := by
  induction as generalizing s with
  | nil => exact List.append_nil _
  | cons a as ih =>
      have hrest := ih (h.preserved s a hs)
      rw [Machine.exec_cons, ← hrest, Machine.trace_cons, conversation]
      rcases h.step_cases hs a i with ⟨hnone, hstep⟩ |
        ⟨phase, hsome, hphase, hstep⟩
      · rw [List.filterMap_cons_none hnone, hstep]
        rfl
      · rw [List.filterMap_cons_some hsome, hstep, List.take_add_one, hphase,
          List.append_assoc]
        rfl

/-- From a state in which a conversation has not begun, its history is the
beginning of the script. -/
theorem conversation_eq (h : Scripted M I script said progress) (hs : I s)
    {i : ι} (hi : progress s i = 0) (as : List α) :
    conversation said i (M.trace s as) =
      script.take (progress (M.exec s as) i) := by
  have htake := h.take_append_conversation hs as i
  rw [hi] at htake
  exact htake

/-- A conversation in which a phase came up has got past the phases before
it. -/
theorem lt_progress_of_mem (h : Scripted M I script said progress) (hs : I s)
    {as : List α} {i : ι} {phase : φ} {n : ℕ}
    (hphase : phase ∈ conversation said i (M.trace s as))
    (hn : phase ∉ script.take n) : n < progress (M.exec s as) i := by
  refine Nat.lt_of_not_le fun hle => hn ?_
  refine List.take_subset_take_left script hle ?_
  rw [← h.take_append_conversation hs as i]
  exact List.mem_append_right _ hphase

end Scripted
end Fiber.Support
