import Fiber.Kernel.System.Userland

/-!
# How one process takes over

A scope that is left by an exception stays on the stack, and no code pops a
scope that it has not pushed.  So when two userboot processes have thrown, the
second one is the running process for good: every syscall of every process is
made in its name, with its handles and its policy.
-/

namespace Fiber.Kernel

open Fiber.Support

/-- The lookup only sees the beginning of the stack. -/
theorem getCurrent_extended {tlScopes tlScopes' : List ProcessContext}
    {process : ProcessDispatcher} (hfront : tlScopes <+: tlScopes')
    (h : ProcessDispatcher.getCurrent tlScopes = .ok process) :
    ProcessDispatcher.getCurrent tlScopes' = .ok process := by
  obtain ⟨context, hcontext, hprocess⟩ :=
    ProcessDispatcher.getCurrent_eq_ok_iff.mp h
  obtain ⟨added, rfl⟩ := hfront
  refine ProcessDispatcher.getCurrent_eq_ok_iff.mpr ⟨context, ?_, hprocess⟩
  have hlength := (List.getElem?_eq_some_iff.mp hcontext).1
  rw [List.getElem?_append_left hlength]
  exact hcontext

/-- Code that keeps what is on the stack when it begins, in a scope, keeps what
was on the stack before the scope. -/
theorem prefix_endState_scope {τ : Type} {context : ProcessContext}
    {fn : Js τ Unit} {r : Realm τ}
    (hfn : r.tlScopes ++ [context] <+:
      (endState fn { r with
        tlScopes := r.tlScopes ++ [context] }).tlScopes) :
    r.tlScopes <+: (endState (scope context fn) r).tlScopes := by
  rcases endState_scope context fn r with hend | hend
  · rw [hend]
    exact (List.prefix_append _ _).trans hfn
  · -- The scope pops its own context, or one that was left on top of it.
    obtain ⟨left, hleft⟩ := hfn
    rw [hend, ← hleft, List.append_assoc,
      List.dropLast_append_of_ne_nil (by simp)]
    exact List.prefix_append _ _

theorem lookups_congr {r r' : KernelState} (h : r'.rest.rest = r.rest.rest) :
    r'.lookups = r.lookups := by
  rw [Realm.lookups, Realm.lookups, Realm.observations, Realm.observations, h]

/-- From `r` to `r'` nothing was taken off the stack, and if there was a
running process at first, every syscall was made for it. -/
structure RunsAs (r r' : KernelState) : Prop where
  scopes : r.tlScopes <+: r'.tlScopes
  lookups : ∃ made, r'.lookups = r.lookups ++ made ∧
    ∀ process, ProcessDispatcher.getCurrent r.tlScopes = .ok process →
      ∀ lookup ∈ made, lookup = .ok process

namespace RunsAs

variable {r r' r'' : KernelState}

/-- Without any syscall. -/
theorem of_same (hscopes : r'.tlScopes = r.tlScopes)
    (hlookups : r'.lookups = r.lookups) : RunsAs r r' where
  scopes := hscopes ▸ List.prefix_refl _
  lookups := ⟨[], by rw [hlookups, List.append_nil], fun _ _ => nofun⟩

theorem trans (h : RunsAs r r') (h' : RunsAs r' r'') : RunsAs r r'' where
  scopes := h.scopes.trans h'.scopes
  lookups := by
    obtain ⟨made, hmade, hnamed⟩ := h.lookups
    obtain ⟨made', hmade', hnamed'⟩ := h'.lookups
    refine ⟨made ++ made', by rw [hmade', hmade, List.append_assoc], ?_⟩
    intro process hprocess lookup hlookup
    rcases List.mem_append.mp hlookup with hold | hnew
    · exact hnamed process hprocess lookup hold
    · exact hnamed' process (getCurrent_extended h.scopes hprocess) lookup
        hnew

/-- A scope does not change who the running process is, if there is one. -/
theorem scope {context : ProcessContext} {fn : UserJs Unit}
    (h : RunsAs { r with tlScopes := r.tlScopes ++ [context] }
      (endState fn { r with tlScopes := r.tlScopes ++ [context] })) :
    RunsAs r (endState (scope context fn) r) where
  scopes := prefix_endState_scope h.scopes
  lookups := by
    obtain ⟨made, hmade, hnamed⟩ := h.lookups
    refine ⟨made, ?_, ?_⟩
    · have hsame := congrArg Custody.rest (rest_endState_scope context fn r)
      exact (lookups_congr hsame).trans hmade
    · intro process hprocess
      exact hnamed process
        (getCurrent_extended (List.prefix_append _ _) hprocess)

end RunsAs

theorem runsAs_throughout : Throughout RunsAs where
  refl _ := .of_same rfl rfl
  trans _ _ _ := RunsAs.trans
  processCreate env args r := by
    rw [endState_processCreate]
    exact .of_same rfl rfl
  processStart env args entry hentry r := by
    obtain ⟨r', hscopes, hrest, hend | ⟨up, -, hend⟩⟩ :=
      endState_sysProcessStart (env.running entry) args r
    · rw [hend]
      exact .of_same hscopes (lookups_congr hrest)
    · rw [hend]
      refine .trans (.of_same hscopes (lookups_congr hrest)) ?_
      exact .scope (hentry _)
  userboot initial hinitial r := by
    rcases endState_startUserboot initial r with hend | hend
    · rw [hend]
      exact .of_same rfl rfl
    · rw [hend]
      have hbooted : RunsAs r r.booted := .of_same rfl rfl
      exact hbooted.trans (.scope (hinitial _))
  pending r pending := .of_same rfl rfl
  observed r running moment hmoment :=
    { scopes := List.prefix_refl _
      lookups := by
        refine ⟨moment.lookup?.toList, lookups_observed r running moment, ?_⟩
        intro process hprocess lookup hlookup
        rw [hmoment lookup (Option.mem_toList.mp hlookup), hprocess] }
  escaped r running := .of_same rfl rfl

/-- Once the lookup finds a process outside of all code, it finds this process
for good: nothing that was on the stack is ever taken off, and every syscall of
every process, in whatever scope, is made for that one process. -/
theorem running_process_forever (r : KernelState)
    (process : ProcessDispatcher)
    (hprocess : ProcessDispatcher.getCurrent r.tlScopes = .ok process)
    (turns : List KernelTurn) :
    let r' := kernelMachine.exec r turns
    r.tlScopes <+: r'.tlScopes ∧
      ProcessDispatcher.getCurrent r'.tlScopes = .ok process ∧
      ∃ made, r'.lookups = r.lookups ++ made ∧
        ∀ lookup ∈ made, lookup = .ok process := by
  intro r'
  have h : RunsAs r r' := runsAs_throughout.exec r turns
  obtain ⟨made, hmade, hnamed⟩ := h.lookups
  exact ⟨h.scopes, getCurrent_extended h.scopes hprocess, made, hmade,
    hnamed process hprocess⟩

/-- Two userboot processes throw, and a third one makes a syscall. -/
theorem running_process_forever_third :
    let r := kernelMachine.exec .new
      [.userboot (.fail .typeError), .userboot (.fail .typeError)]
    let r' := kernelMachine.exec r [.userboot (.processExit 0 fun _ => .ret)]
    r'.lookups = [.ok ⟨1, "userboot"⟩] ∧
      ProcessDispatcher.getCurrent r'.tlScopes = .ok ⟨1, "userboot"⟩ := by
  intro r r'
  exact ⟨rfl, (running_process_forever r ⟨1, "userboot"⟩ rfl
    [.userboot (.processExit 0 fun _ => .ret)]).2.1⟩

end Fiber.Kernel
