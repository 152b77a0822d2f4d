import Fiber.Kernel.Process.Lookup
import Fiber.Support.Outcome

/-!
# Leaving scopes by exceptions

Code with state, nested scopes, exceptions and handlers.  `scope` pops its
context after a normal return only.  So the stack is restored exactly if every
scope is left normally; an exception that leaves a scope makes the stack longer
for good, also when a caller catches it.

Code that looks the running process up and catches nothing is a special case.
-/

namespace Fiber.Kernel

/-- Code whose own state has type `τ`, as a tree: a scope or a handled block is
followed by what happens next, which depends on the state reached. -/
inductive Code (τ : Type)
  | ret (state : τ)
  | fail (e : JsError) (state : τ)
  | observe (next : List ProcessContext → Code τ)
  | scope (context : ProcessContext) (fn : Code τ) (next : τ → Code τ)
  | attempt (body : Code τ) (handler : JsError → τ → Code τ)
      (next : τ → Code τ)

/-- How code ends. -/
inductive Exit (τ : Type)
  | returned (state : τ)
  | threw (e : JsError) (state : τ)

namespace Code

variable {τ : Type}

def run : Code τ → Js τ Unit
  | .ret state => modify fun r => { r with rest := state }
  | .fail e state => do
      modify fun r => { r with rest := state }
      throw e
  | .observe next => do
      let r ← get
      (next r.tlScopes).run
  | .scope context fn next => do
      Kernel.scope context fn.run
      let r ← get
      (next r.rest).run
  | .attempt body handler next => do
      tryCatch body.run fun e => do
        let r ← get
        (handler e r.rest).run
      let r ← get
      (next r.rest).run

/-- `Clean active code exit`: inside the scopes `active` the code ends by
`exit`, and no exception leaves a scope on the way. -/
inductive Clean : List ProcessContext → Code τ → Exit τ → Prop
  | ret {active : List ProcessContext} {state : τ} :
      Clean active (.ret state) (.returned state)
  | fail {active : List ProcessContext} {e : JsError} {state : τ} :
      Clean active (.fail e state) (.threw e state)
  | observe {active : List ProcessContext}
      {next : List ProcessContext → Code τ} {exit : Exit τ}
      (hnext : Clean active (next active) exit) :
      Clean active (.observe next) exit
  | scope {active : List ProcessContext} {context : ProcessContext}
      {fn : Code τ} {next : τ → Code τ} {state : τ} {exit : Exit τ}
      (hfn : Clean (active ++ [context]) fn (.returned state))
      (hnext : Clean active (next state) exit) :
      Clean active (.scope context fn next) exit
  | succeed {active : List ProcessContext} {body : Code τ}
      {handler : JsError → τ → Code τ} {next : τ → Code τ} {state : τ}
      {exit : Exit τ} (hbody : Clean active body (.returned state))
      (hnext : Clean active (next state) exit) :
      Clean active (.attempt body handler next) exit
  | handle {active : List ProcessContext} {body : Code τ}
      {handler : JsError → τ → Code τ} {next : τ → Code τ} {e : JsError}
      {thrown state : τ} {exit : Exit τ}
      (hbody : Clean active body (.threw e thrown))
      (hhandler : Clean active (handler e thrown) (.returned state))
      (hnext : Clean active (next state) exit) :
      Clean active (.attempt body handler next) exit
  | rethrow {active : List ProcessContext} {body : Code τ}
      {handler : JsError → τ → Code τ} {next : τ → Code τ} {e e' : JsError}
      {thrown state : τ} (hbody : Clean active body (.threw e thrown))
      (hhandler : Clean active (handler e thrown) (.threw e' state)) :
      Clean active (.attempt body handler next) (.threw e' state)

/-- The result of code that ends by `exit` with this stack. -/
def resultOf (tlScopes : List ProcessContext) :
    Exit τ → EStateM.Result JsError (Realm τ) Unit
  | .returned state => .ok () ⟨tlScopes, state⟩
  | .threw e state => .error e ⟨tlScopes, state⟩

/-! ## Runs -/

section

variable {r r' : Realm τ} {e : JsError} {context : ProcessContext}
  {fn body : Code τ} {next : τ → Code τ} {handler : JsError → τ → Code τ}

theorem run_scope_of_ok (next : τ → Code τ)
    (h : fn.run.run { r with tlScopes := r.tlScopes ++ [context] } =
      .ok () r') :
    (Code.scope context fn next).run.run r =
      (next r'.rest).run.run
        { r' with tlScopes := r'.tlScopes.dropLast } := by
  simp [run, Kernel.scope, h]

theorem run_scope_of_error
    (h : fn.run.run { r with tlScopes := r.tlScopes ++ [context] } =
      .error e r') :
    (Code.scope context fn next).run.run r = .error e r' := by
  simp [run, Kernel.scope, h]

theorem run_attempt_of_ok (h : body.run.run r = .ok () r') :
    (Code.attempt body handler next).run.run r =
      (next r'.rest).run.run r' := by
  rw [run, EStateM.run_bind, Support.run_tryCatch, h]
  rfl

theorem run_attempt_of_handled {r'' : Realm τ}
    (h : body.run.run r = .error e r')
    (hhandler : (handler e r'.rest).run.run r' = .ok () r'') :
    (Code.attempt body handler next).run.run r =
      (next r''.rest).run.run r'' := by
  rw [run, EStateM.run_bind, Support.run_tryCatch, h]
  simp [hhandler]

theorem run_attempt_of_rethrown {e' : JsError} {r'' : Realm τ}
    (h : body.run.run r = .error e r')
    (hhandler : (handler e r'.rest).run.run r' = .error e' r'') :
    (Code.attempt body handler next).run.run r = .error e' r'' := by
  rw [run, EStateM.run_bind, Support.run_tryCatch, h]
  simp [hhandler]

end

/-- Clean code ends as it should and leaves the stack as it is. -/
theorem run_of_clean {active : List ProcessContext} {c : Code τ}
    {exit : Exit τ} (h : Clean active c exit) (s : τ) :
    c.run.run ⟨active, s⟩ = resultOf active exit := by
  induction h generalizing s with
  | ret => rfl
  | fail => rfl
  | observe _ ih => exact ih s
  | @scope active context fn next state exit _ _ ihfn ihnext =>
      have hscope := run_scope_of_ok (r := ⟨active, s⟩) next (ihfn s)
      rw [List.dropLast_concat] at hscope
      exact hscope.trans (ihnext state)
  | succeed _ _ ihbody ihnext =>
      exact (run_attempt_of_ok (ihbody s)).trans (ihnext _)
  | handle _ _ _ ihbody ihhandler ihnext =>
      exact (run_attempt_of_handled (ihbody s) (ihhandler _)).trans
        (ihnext _)
  | rethrow _ _ ihbody ihhandler =>
      exact run_attempt_of_rethrown (ihbody s) (ihhandler _)

/-! ## The stack after a run -/

theorem tlScopes_of_ok {code : Js τ Unit} {r r' : Realm τ}
    (h : code.run r = .ok () r') :
    (stateAfter code r).tlScopes = r'.tlScopes := by
  rw [stateAfter, h]

theorem tlScopes_of_error {code : Js τ Unit} {r r' : Realm τ} {e : JsError}
    (h : code.run r = .error e r') :
    (stateAfter code r).tlScopes = r'.tlScopes := by
  rw [stateAfter, h]

/-- The code is clean and leaves the stack as it is, or it leaves the stack
longer. -/
def Restores (c : Code τ) (r : Realm τ) : Prop :=
  (∃ exit, Clean r.tlScopes c exit) ∨
    r.tlScopes.length < (stateAfter c.run r).tlScopes.length

/-- What follows a run that left the stack longer does not shorten it. -/
theorem Restores.longer {c : Code τ} {r : Realm τ} (h : Restores c r) :
    r.tlScopes.length ≤ (stateAfter c.run r).tlScopes.length := by
  rcases h with ⟨exit, hclean⟩ | hlonger
  · have hrun := run_of_clean hclean r.rest
    rcases exit with s | ⟨e, s⟩
    · exact Nat.le_of_eq (by rw [tlScopes_of_ok hrun])
    · exact Nat.le_of_eq (by rw [tlScopes_of_error hrun])
  · exact Nat.le_of_lt hlonger

/-- Going on with the same stack. -/
theorem restores_of_same {c c' : Code τ} {r : Realm τ} {s : τ}
    (hc' : Restores c' ⟨r.tlScopes, s⟩)
    (hrun : c.run.run r = c'.run.run ⟨r.tlScopes, s⟩)
    (hclean : ∀ exit, Clean r.tlScopes c' exit → Clean r.tlScopes c exit) :
    Restores c r := by
  rcases hc' with ⟨exit, hc'⟩ | hlonger
  · exact Or.inl ⟨exit, hclean exit hc'⟩
  · right
    rwa [stateAfter, hrun, ← stateAfter]

/-- Going on after a run that left the stack longer. -/
theorem restores_of_longer {c c' : Code τ} {r r' : Realm τ}
    (hlonger : r.tlScopes.length < r'.tlScopes.length)
    (hc' : Restores c' r') (hrun : c.run.run r = c'.run.run r') :
    Restores c r := by
  right
  rw [stateAfter, hrun, ← stateAfter]
  exact Nat.lt_of_lt_of_le hlonger hc'.longer

/-- An exception with a longer stack. -/
theorem restores_of_error {c : Code τ} {r r' : Realm τ} {e : JsError}
    (hlonger : r.tlScopes.length < r'.tlScopes.length)
    (hrun : c.run.run r = .error e r') : Restores c r := by
  right
  rwa [tlScopes_of_error hrun]

theorem restores_scope {context : ProcessContext} {fn : Code τ}
    {next : τ → Code τ} {r : Realm τ}
    (hfn : Restores fn { r with tlScopes := r.tlScopes ++ [context] })
    (hnext : ∀ s r, Restores (next s) r) :
    Restores (.scope context fn next) r := by
  rcases hfn with ⟨exit, hclean⟩ | hlonger
  · have hrun := run_of_clean hclean r.rest
    rcases exit with s | ⟨e, s⟩
    · -- The scope is left normally, and its own context is on top.
      have hscope := run_scope_of_ok next hrun
      rw [List.dropLast_concat] at hscope
      exact restores_of_same (hnext s _) hscope fun _ hnext =>
        .scope hclean hnext
    · exact restores_of_error (by simp) (run_scope_of_error hrun)
  · rcases hrun : fn.run.run
        { r with tlScopes := r.tlScopes ++ [context] } with
      ⟨⟨⟩, r'⟩ | ⟨e, r'⟩
    · -- The scope pops a leaked context, and its own one stays.
      rw [tlScopes_of_ok hrun, List.length_append] at hlonger
      refine restores_of_longer ?_ (hnext r'.rest _)
        (run_scope_of_ok next hrun)
      rw [List.length_dropLast]
      simp only [List.length_singleton] at hlonger
      omega
    · rw [tlScopes_of_error hrun, List.length_append] at hlonger
      exact restores_of_error (by omega) (run_scope_of_error hrun)

theorem restores_attempt {body : Code τ} {handler : JsError → τ → Code τ}
    {next : τ → Code τ} {r : Realm τ} (hbody : Restores body r)
    (hhandler : ∀ e s r, Restores (handler e s) r)
    (hnext : ∀ s r, Restores (next s) r) :
    Restores (.attempt body handler next) r := by
  rcases hbody with ⟨exit, hclean⟩ | hlonger
  · have hrun := run_of_clean hclean r.rest
    rcases exit with s | ⟨e, s⟩
    · exact restores_of_same (hnext s _) (run_attempt_of_ok hrun)
        fun _ hnext => .succeed hclean hnext
    · rcases hhandler e s ⟨r.tlScopes, s⟩ with ⟨exit, hcaught⟩ | hlonger
      · have hrun' := run_of_clean hcaught s
        rcases exit with s' | ⟨e', s'⟩
        · exact restores_of_same (hnext s' _)
            (run_attempt_of_handled hrun hrun')
            fun _ hnext => .handle hclean hcaught hnext
        · exact Or.inl ⟨.threw e' s', .rethrow hclean hcaught⟩
      · rcases hrun' : (handler e s).run.run ⟨r.tlScopes, s⟩ with
          ⟨⟨⟩, r''⟩ | ⟨e', r''⟩
        · rw [tlScopes_of_ok hrun'] at hlonger
          exact restores_of_longer hlonger (hnext r''.rest r'')
            (run_attempt_of_handled hrun hrun')
        · rw [tlScopes_of_error hrun'] at hlonger
          exact restores_of_error hlonger
            (run_attempt_of_rethrown hrun hrun')
  · rcases hrun : body.run.run r with ⟨⟨⟩, r'⟩ | ⟨e, r'⟩
    · rw [tlScopes_of_ok hrun] at hlonger
      exact restores_of_longer hlonger (hnext r'.rest r')
        (run_attempt_of_ok hrun)
    · rw [tlScopes_of_error hrun] at hlonger
      have hle := (hhandler e r'.rest r').longer
      rcases hrun' : (handler e r'.rest).run.run r' with
        ⟨⟨⟩, r''⟩ | ⟨e', r''⟩
      · rw [tlScopes_of_ok hrun'] at hle
        exact restores_of_longer (Nat.lt_of_lt_of_le hlonger hle)
          (hnext r''.rest r'') (run_attempt_of_handled hrun hrun')
      · rw [tlScopes_of_error hrun'] at hle
        exact restores_of_error (Nat.lt_of_lt_of_le hlonger hle)
          (run_attempt_of_rethrown hrun hrun')

theorem restores (c : Code τ) (r : Realm τ) : Restores c r := by
  induction c generalizing r with
  | ret s => exact Or.inl ⟨_, .ret⟩
  | fail e s => exact Or.inl ⟨_, .fail⟩
  | observe next ih =>
      exact restores_of_same (ih r.tlScopes r) rfl fun _ => .observe
  | scope context fn next ihfn ihnext =>
      exact restores_scope (ihfn _) ihnext
  | attempt body handler next ihbody ihhandler ihnext =>
      exact restores_attempt (ihbody r) ihhandler ihnext

end Code

variable {τ : Type}

/-- The stack after the scope is the stack before it, however `fn` ends. -/
def ScopeRestores (context : ProcessContext) (fn : Code τ) (r : Realm τ) :
    Prop :=
  (stateAfter (scope context fn.run) r).tlScopes = r.tlScopes

theorem stateAfter_scope_of_ok {context : ProcessContext} {fn : Js τ Unit}
    {r r' : Realm τ}
    (h : fn.run { r with tlScopes := r.tlScopes ++ [context] } = .ok () r') :
    stateAfter (scope context fn) r =
      { r' with tlScopes := r'.tlScopes.dropLast } := by
  simp [stateAfter, scope, h]

theorem stateAfter_scope_of_error {context : ProcessContext}
    {fn : Js τ Unit} {r r' : Realm τ} {e : JsError}
    (h : fn.run { r with tlScopes := r.tlScopes ++ [context] } =
      .error e r') : stateAfter (scope context fn) r = r' := by
  simp [stateAfter, scope, h]

/-- `scope` restores the stack exactly if its function returns normally and no
exception leaves a scope inside it. -/
theorem scope_restores_iff (context : ProcessContext) (fn : Code τ)
    (r : Realm τ) :
    ScopeRestores context fn r ↔
      ∃ state, Code.Clean (r.tlScopes ++ [context]) fn (.returned state) := by
  constructor
  · intro hrestores
    rw [ScopeRestores] at hrestores
    rcases fn.restores { r with tlScopes := r.tlScopes ++ [context] } with
      ⟨exit, hclean⟩ | hlonger
    · rcases exit with s | ⟨e, s⟩
      · exact ⟨s, hclean⟩
      · have hrun := Code.run_of_clean hclean r.rest
        rw [stateAfter_scope_of_error hrun] at hrestores
        simp at hrestores
    · rcases hrun : fn.run.run
          { r with tlScopes := r.tlScopes ++ [context] } with
        ⟨⟨⟩, r'⟩ | ⟨e, r'⟩
      · rw [stateAfter_scope_of_ok hrun] at hrestores
        rw [Code.tlScopes_of_ok hrun, List.length_append] at hlonger
        have hlen := congrArg List.length hrestores
        simp only [List.length_dropLast, List.length_singleton] at hlen hlonger
        omega
      · rw [stateAfter_scope_of_error hrun] at hrestores
        rw [Code.tlScopes_of_error hrun, List.length_append] at hlonger
        have hlen := congrArg List.length hrestores
        omega
  · rintro ⟨s, hclean⟩
    have hrun := Code.run_of_clean hclean r.rest
    rw [ScopeRestores, stateAfter_scope_of_ok hrun]
    exact List.dropLast_concat

/-- A process entry that throws stays on the stack. -/
theorem not_scopeRestores_throw :
    ¬ ScopeRestores ⟨⟨1, "test0"⟩⟩ (.fail (.error "boom") ()) ⟨[], ()⟩ := by
  intro h
  have hlen : [(⟨⟨1, "test0"⟩⟩ : ProcessContext)] = [] := h
  exact List.cons_ne_nil _ _ hlen

/-! ## Code that catches nothing -/

/-- Code does not depend on its own state before the run. -/
theorem Code.run_of_rest (c : Code τ) (tlScopes : List ProcessContext)
    (s s' : τ) : c.run.run ⟨tlScopes, s⟩ = c.run.run ⟨tlScopes, s'⟩ := by
  induction c generalizing tlScopes s s' with
  | ret state => rfl
  | fail e state => rfl
  | observe next ih => exact ih tlScopes tlScopes s s'
  | scope context fn next ihfn ihnext =>
      have hfn := ihfn (tlScopes ++ [context]) s s'
      rcases hrun : fn.run.run ⟨tlScopes ++ [context], s'⟩ with
        ⟨⟨⟩, r'⟩ | ⟨e, r'⟩
      · rw [run_scope_of_ok next (hfn.trans hrun), run_scope_of_ok next hrun]
      · rw [run_scope_of_error (hfn.trans hrun), run_scope_of_error hrun]
  | attempt body handler next ihbody ihhandler ihnext =>
      simp only [run, EStateM.run_bind, Support.run_tryCatch,
        ihbody tlScopes s s']

namespace Fn

/-- The same code with the lookups recorded in its state. -/
def code (active : List ProcessContext) : Fn → List Lookup → Code (List Lookup)
  | .ret, lookups => .ret lookups
  | .fail e, lookups => .fail e lookups
  | .getCurrent next, lookups => .observe fun tlScopes =>
      let outcome := ProcessDispatcher.getCurrent tlScopes
      (next outcome).code active (lookups ++ [⟨active, outcome⟩])
  | .scope context fn next, lookups =>
      .scope context (fn.code (active ++ [context]) lookups) fun lookups =>
        next.code active lookups

theorem run_code (fn : Fn) (active : List ProcessContext)
    (r : Realm (List Lookup)) :
    (fn.code active r.rest).run.run r = (fn.run active).run r := by
  induction fn generalizing active r with
  | ret => rfl
  | fail e => rfl
  | getCurrent next ih =>
      let outcome := ProcessDispatcher.getCurrent r.tlScopes
      let r' : Realm (List Lookup) :=
        ⟨r.tlScopes, r.rest ++ [⟨active, outcome⟩]⟩
      exact (Code.run_of_rest _ r.tlScopes r.rest r'.rest).trans
        (ih outcome active r')
  | scope context fn next ihfn ihnext =>
      have hfn := ihfn (active ++ [context])
        { r with tlScopes := r.tlScopes ++ [context] }
      rw [Fn.run, EStateM.run_bind]
      rcases hrun : (fn.run (active ++ [context])).run
          { r with tlScopes := r.tlScopes ++ [context] } with
        ⟨⟨⟩, r'⟩ | ⟨e, r'⟩
      · rw [code, Code.run_scope_of_ok _ (hfn.trans hrun)]
        simp only [Kernel.scope, EStateM.run_bind, EStateM.run_modify, hrun]
        exact ihnext active { r' with tlScopes := r'.tlScopes.dropLast }
      · rw [code, Code.run_scope_of_error (hfn.trans hrun)]
        simp only [Kernel.scope, EStateM.run_bind, EStateM.run_modify, hrun]

/-- Around code that catches nothing, a scope is undone exactly if the code
returns. -/
theorem scopeRestores_iff_returns (fn : Fn) (context : ProcessContext)
    (active : List ProcessContext) :
    ScopeRestores context (fn.code (active ++ [context]) []) ⟨active, []⟩ ↔
      ∃ r, (fn.run (active ++ [context])).run ⟨active ++ [context], []⟩ =
        .ok () r := by
  let inside : Realm (List Lookup) := ⟨active ++ [context], []⟩
  have hrun := fn.run_code (active ++ [context]) inside
  have htriple := fn.run_triple (active ++ [context]) inside ⟨rfl, nofun⟩
  rcases hcode : (fn.run (active ++ [context])).run inside with
    ⟨⟨⟩, r⟩ | ⟨e, r⟩
  · rw [hcode] at hrun htriple
    refine iff_of_true ?_ ⟨r, rfl⟩
    rw [ScopeRestores, stateAfter_scope_of_ok hrun, htriple.1,
      List.dropLast_concat]
  · rw [hcode] at hrun
    refine iff_of_false (fun hrestores => ?_) nofun
    have hlonger :=
      ((fn.code (active ++ [context]) []).restores inside).longer
    rw [ScopeRestores, stateAfter_scope_of_error hrun] at hrestores
    rw [Code.tlScopes_of_error hrun, hrestores, List.length_append,
      List.length_singleton] at hlonger
    exact Nat.not_succ_le_self _ hlonger

end Fn
end Fiber.Kernel
