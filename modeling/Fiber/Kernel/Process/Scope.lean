import Fiber.KernelTypes
import Fiber.Support.Hoare

/-!
# The process scope stack

`TL_SCOPES` is one module-level array shared by all processes.  `scope` pushes
a context, calls a function and pops again; `ProcessDispatcher.getCurrent`
looks the running process up in it.  Code that runs on this array is a
computation over a `Realm`: the array together with whatever else the code
changes.  A thrown exception keeps the changes made before it.
-/

namespace Fiber.Kernel

open Fiber.Support

/-- A process object.  Its fields are written by the constructor only, so the
value together with the identity `ref` stands for the object. -/
structure ProcessDispatcher where
  ref : ℕ
  name : String
  deriving DecidableEq, Repr

structure ProcessContext where
  dispatcher : ProcessDispatcher
  deriving DecidableEq, Repr

/-- The scope stack, oldest scope first, and the rest of the state. -/
structure Realm (τ : Type) where
  tlScopes : List ProcessContext
  rest : τ

/-- Code that may throw, over a realm. -/
abbrev Js (τ : Type) := EStateM JsError (Realm τ)

variable {τ : Type}

def scope (context : ProcessContext) (fn : Js τ Unit) : Js τ Unit := do
  modify fun r => { r with tlScopes := r.tlScopes ++ [context] }
  fn
  modify fun r => { r with tlScopes := r.tlScopes.dropLast }

/-- The state that code leaves behind, also when it throws. -/
def stateAfter (code : Js τ Unit) (r : Realm τ) : Realm τ :=
  match code.run r with
  | .ok _ r' => r'
  | .error _ r' => r'

/-- Around code that leaves its own context on top, `scope` leaves the stack as
it found it. -/
theorem scope_triple {context : ProcessContext} {fn : Js τ Unit}
    {tlScopes : List ProcessContext} {J K : τ → Prop}
    {E : JsError → Realm τ → Prop}
    (hfn : Triple
      (fun r => r.tlScopes = tlScopes ++ [context] ∧ J r.rest) fn
      (fun _ r => r.tlScopes = tlScopes ++ [context] ∧ K r.rest) E) :
    Triple (fun r => r.tlScopes = tlScopes ∧ J r.rest) (scope context fn)
      (fun _ r => r.tlScopes = tlScopes ∧ K r.rest) E := by
  refine triple_bind (triple_modify ?_) fun _ =>
    triple_bind hfn fun _ => triple_modify ?_
  · rintro r ⟨rfl, hrest⟩
    exact ⟨rfl, hrest⟩
  · rintro r ⟨hscopes, hrest⟩
    refine ⟨?_, hrest⟩
    rw [hscopes, List.dropLast_concat]

/-- `scope.length`: a JavaScript function's `length` is the number of its
parameters, and `scope` has two. -/
def scopeLength : ℕ := 2

namespace ProcessDispatcher

def getName (process : ProcessDispatcher) : String := process.name

/-- `TL_SCOPES[scope.length - 1].dispatcher`, which throws when there is no
such element. -/
def getCurrent (tlScopes : List ProcessContext) :
    Except JsError ProcessDispatcher :=
  match tlScopes[scopeLength - 1]? with
  | some last => .ok last.dispatcher
  | none => .error .typeError

/-- `ProcessDispatcher.exitCurrent` looks the process up in the same way, and
does nothing with it yet. -/
def exitCurrent (tlScopes : List ProcessContext) (_retCode : ℤ) :
    Except JsError Unit :=
  match tlScopes[scopeLength - 1]? with
  | some _ => .ok ()
  | none => .error .typeError

/-- Exiting throws exactly when the lookup does. -/
theorem exitCurrent_eq (tlScopes : List ProcessContext) (retCode : ℤ) :
    exitCurrent tlScopes retCode =
      (getCurrent tlScopes).map fun _ => () := by
  rw [exitCurrent, getCurrent]
  cases tlScopes[scopeLength - 1]? <;> rfl

theorem getCurrent_eq_ok_iff
    {tlScopes : List ProcessContext} {process : ProcessDispatcher} :
    getCurrent tlScopes = .ok process ↔
      ∃ context, tlScopes[1]? = some context ∧
        context.dispatcher = process := by
  rw [getCurrent, show scopeLength - 1 = 1 from rfl]
  cases h : tlScopes[1]? with
  | none => simp
  | some context => simp

end ProcessDispatcher
end Fiber.Kernel
