import Fiber.Kernel.Process.Scope
import Mathlib.Data.List.Basic

/-!
# Looking up the current process

Code that runs in scopes is written as a tree: it returns, throws, looks the
current process up and goes on with what it got, or runs a function in a scope
and goes on afterwards.  An exception ends the run, so every scope that is
left while the run goes on is left normally.  Every lookup is recorded together
with the contexts of the scopes around it, which are known from the tree alone.

`getCurrent` reads `TL_SCOPES[scope.length - 1]`, and `scope.length` is the
number of parameters of the function `scope`.  So it finds the second scope on
the stack, whatever the depth.
-/

namespace Fiber.Kernel

open Fiber.Support

/-- Synchronous code, as far as the scope stack is concerned. -/
inductive Fn
  | ret
  | fail (e : JsError)
  | getCurrent (next : Except JsError ProcessDispatcher → Fn)
  | scope (context : ProcessContext) (fn next : Fn)

/-- A lookup: the contexts of the active scopes, outermost first, and how the
lookup ended. -/
structure Lookup where
  active : List ProcessContext
  outcome : Except JsError ProcessDispatcher

namespace Fn

/-- Run code inside the scopes `active`, recording its lookups. -/
def run (active : List ProcessContext) : Fn → Js (List Lookup) Unit
  | .ret => pure ()
  | .fail e => throw e
  | .getCurrent next => do
      let r ← get
      let outcome := ProcessDispatcher.getCurrent r.tlScopes
      set { r with rest := r.rest ++ [Lookup.mk active outcome] }
      (next outcome).run active
  | .scope context fn next => do
      Kernel.scope context (fn.run (active ++ [context]))
      next.run active

/-- The lookups of a run that starts with an empty stack. -/
def lookups (fn : Fn) : List Lookup :=
  match (fn.run []).run ⟨[], []⟩ with
  | .ok _ r => r.rest
  | .error _ r => r.rest

end Fn

namespace Lookup

/-- The lookup returned the process of the innermost active scope. -/
def FindsInnermost (lookup : Lookup) : Prop :=
  ∀ context, lookup.active.getLast? = some context →
    lookup.outcome = .ok context.dispatcher

/-- At least two scopes are active, and the second one from the outside has
the process of the innermost one. -/
def SecondIsInnermost (lookup : Lookup) : Prop :=
  ∀ context, lookup.active.getLast? = some context →
    ∃ second, lookup.active[1]? = some second ∧
      second.dispatcher = context.dispatcher

/-- The outcome is that of `getCurrent` on the active scopes. -/
def Faithful (lookup : Lookup) : Prop :=
  lookup.outcome = ProcessDispatcher.getCurrent lookup.active

theorem Faithful.findsInnermost_iff {lookup : Lookup}
    (h : lookup.Faithful) :
    lookup.FindsInnermost ↔ lookup.SecondIsInnermost := by
  unfold FindsInnermost SecondIsInnermost
  rw [h]
  simp only [ProcessDispatcher.getCurrent_eq_ok_iff]

end Lookup

/-- The stack holds exactly the active scopes at every lookup, and again when
the code returns. -/
theorem Fn.run_triple (fn : Fn) (active : List ProcessContext) :
    Triple
      (fun r => r.tlScopes = active ∧ ∀ lookup ∈ r.rest, lookup.Faithful)
      (fn.run active)
      (fun _ r => r.tlScopes = active ∧ ∀ lookup ∈ r.rest, lookup.Faithful)
      (fun _ r => ∀ lookup ∈ r.rest, lookup.Faithful) := by
  induction fn generalizing active with
  | ret => exact triple_pure fun _ h => h
  | fail e => exact triple_throw fun _ h => h.2
  | getCurrent next ih =>
      refine triple_get fun r ⟨hscopes, hrest⟩ => ?_
      refine triple_bind (triple_set ?_) fun _ => ih _ active
      rintro _ rfl
      refine ⟨hscopes, fun lookup hlookup => ?_⟩
      rcases List.mem_append.mp hlookup with hold | hnew
      · exact hrest lookup hold
      · obtain rfl := List.mem_singleton.mp hnew
        rw [Lookup.Faithful, hscopes]
  | scope context fn next ihfn ihnext =>
      refine triple_bind ?_ fun _ => ihnext active
      let J (rest : List Lookup) : Prop := ∀ lookup ∈ rest, lookup.Faithful
      exact scope_triple (J := J) (K := J) (ihfn _)

theorem Fn.faithful_of_mem_lookups (fn : Fn) :
    ∀ lookup ∈ fn.lookups, lookup.Faithful := by
  have hrun := fn.run_triple [] ⟨[], []⟩ ⟨rfl, by simp⟩
  unfold lookups
  revert hrun
  cases (fn.run []).run ⟨[], []⟩ with
  | ok a r => exact fun hrun => hrun.2
  | error e r => exact fun hrun => hrun

/-- In every run, every lookup finds the process of the innermost active scope
exactly if, at every lookup inside scopes, at least two are active and the
second one has the process of the innermost one. -/
theorem current_process_innermost_iff (fn : Fn) :
    (∀ lookup ∈ fn.lookups, lookup.FindsInnermost) ↔
      ∀ lookup ∈ fn.lookups, lookup.SecondIsInnermost :=
  forall₂_congr fun lookup hlookup =>
    (fn.faithful_of_mem_lookups lookup hlookup).findsInnermost_iff

/-- A single scope, as around userboot: the lookup throws. -/
theorem current_process_not_innermost :
    ¬ ∀ lookup ∈ (Fn.scope ⟨⟨0, "userboot"⟩⟩ (.getCurrent fun _ => .ret)
        .ret).lookups, lookup.FindsInnermost := by
  intro hfinds
  have hlookup := hfinds ⟨[⟨⟨0, "userboot"⟩⟩], .error .typeError⟩
    (by exact List.mem_singleton.mpr rfl) _ rfl
  cases hlookup

end Fiber.Kernel
