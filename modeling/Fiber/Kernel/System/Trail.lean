import Fiber.Kernel.System.Userland

/-!
# The trail of user code

What user code leaves on the scope stack and in the record depends on little of
what it does: on how its starts of processes are nested, on where it throws,
and on which continuations the event loop runs.  `Ran` and `Turned` say
everything that can happen there, and the code is shown to follow them.  The
results about whose code runs are derived from these two relations.
-/

namespace Fiber.Kernel

open Fiber.Support

/-- The scope stack and the record. -/
structure Trail where
  tlScopes : List ProcessContext
  observations : List Observation
  escapes : List Running

namespace Trail

def start : Trail := ⟨[], [], []⟩

/-- The processes whose scopes were left by exceptions, in this order. -/
def left (t : Trail) : List ProcessContext := t.escapes.map Running.process

def observed (t : Trail) (running : Running) (moment : Moment) : Trail :=
  { t with
    observations :=
      t.observations ++ [⟨running, t.left, t.tlScopes, moment⟩] }

def calling (t : Trail) (running : Running) : Trail :=
  t.observed running (.syscall (ProcessDispatcher.getCurrent t.tlScopes))

def escaped (t : Trail) (running : Running) : Trail :=
  { t with escapes := t.escapes ++ [running] }

def pushed (t : Trail) (context : ProcessContext) : Trail :=
  { t with tlScopes := t.tlScopes ++ [context] }

def popped (t : Trail) : Trail := { t with tlScopes := t.tlScopes.dropLast }

end Trail

def Realm.trail (r : KernelState) : Trail :=
  ⟨r.tlScopes, r.observations, r.escapes⟩

/-- The function of a scope ends: it returns and the scope pops, or it throws
and the scope is left as it is. -/
inductive Leaves (running : Running) (t : Trail) : Trail → Prop
  | returned : Leaves running t t.popped
  | threw : Leaves running t (t.escaped running)

/-- One part of a process: it makes a last step; it makes a syscall and goes on
without a change of the stack; or it starts a process, whose first part runs in
a scope, and goes on. -/
inductive Ran : Running → Trail → Trail → Prop
  | ended {running : Running} {t : Trail} :
      Ran running t (t.observed running .step)
  | called {running : Running} {t t' : Trail}
      (hnext : Ran running (t.calling running) t') : Ran running t t'
  | started {running : Running} {process : ProcessContext}
      {t inside outside t' : Trail}
      (hentry : Ran (running.start process)
        ((t.calling running).pushed process) inside)
      (hleaves : Leaves (running.start process) inside outside)
      (hnext : Ran running outside t') : Ran running t t'

/-- One turn of the event loop: nothing runs, or userboot does in a scope, or a
continuation of a process does. -/
inductive Turned (t : Trail) : Trail → Prop
  | idle : Turned t t
  | booted {process : ProcessContext} {inside outside : Trail}
      (hrun : Ran (.boot process) (t.pushed process) inside)
      (hleaves : Leaves (.boot process) inside outside) : Turned t outside
  | resumed {process : ProcessContext} {t' : Trail}
      (hrun : Ran (.resumed process)
        (t.observed (.resumed process) .resumed) t') : Turned t t'

/-! ## The code follows the trail -/

theorem trail_withObjects (r : KernelState) (o : Objects) :
    (r.withObjects o).trail = r.trail := rfl

theorem trail_congr {r r' : KernelState} (hscopes : r'.tlScopes = r.tlScopes)
    (hrest : r'.rest.rest = r.rest.rest) : r'.trail = r.trail := by
  rw [Realm.trail, Realm.trail, Realm.observations, Realm.observations,
    Realm.escapes, Realm.escapes, hscopes, hrest]

/-- However its function ends, the scope is left. -/
theorem leaves_scope (context : ProcessContext) (running : Running)
    (code : UserJs Unit) (r : KernelState) :
    Leaves running
      (endState code { r with tlScopes := r.tlScopes ++ [context] }).trail
      (endState (scope context (inScope running code)) r).trail := by
  rw [scope, endState_bind (EStateM.run_modify _ r)]
  rcases hrun : code.run { r with tlScopes := r.tlScopes ++ [context] } with
    ⟨⟨⟩, ended⟩ | ⟨e, ended⟩
  · have hreturned : (inScope running code).run
        { r with tlScopes := r.tlScopes ++ [context] } = .ok () ended :=
      run_onThrow_of_ok hrun
    rw [endState_bind hreturned, endState_of_ok hrun]
    exact .returned
  · have hthrew : (inScope running code).run
        { r with tlScopes := r.tlScopes ++ [context] } =
          .error e (ended.escaped running) := run_onThrow_of_error hrun
    rw [endState_of_error hrun, endState, EStateM.run_bind, hthrew]
    exact .threw

/-- A syscall that keeps the trail. -/
theorem ran_of_keeps {α : Type} {running : Running} {code : UserJs α}
    {next : Except JsError α → UserCode} {r : KernelState}
    (hkeeps : ∀ r, (endState code r).trail = r.trail)
    (hnext : ∀ outcome r, Ran running r.trail
      (endState ((next outcome).run running) r).trail) :
    Ran running r.trail (endState (do
      let outcome ← syscall running code
      (next outcome).run running) r).trail := by
  obtain ⟨outcome, hrun⟩ := exists_syscall running code r
  have hafter := hnext outcome (endState code (r.calling running))
  rw [hkeeps] at hafter
  rw [endState_bind hrun]
  exact .called hafter

/-- A start keeps the trail, or runs the entry in the scope of the process that
the entry belongs to. -/
theorem sysProcessStart_leaves (env : StartEnvironment Unit)
    (args : ProcessStartArgs) (running : Running)
    {entry : Running → UserJs Unit} (r : KernelState)
    (hentry : ∀ running r,
      Ran running r.trail (endState (entry running) r).trail) :
    let ended := endState (sysProcessStart
      (env.running (startedEntry env args running entry r)) args)
      (r.calling running)
    ended.trail = (r.calling running).trail ∨
      ∃ process inside, Ran (running.start process)
          ((r.trail.calling running).pushed process) inside ∧
        Leaves (running.start process) inside ended.trail := by
  intro ended
  obtain ⟨r', hscopes, hrest, hend | ⟨up, hcurrent, hend⟩⟩ :=
    endState_sysProcessStart
      (env.running (startedEntry env args running entry r)) args
      (r.calling running)
  · left
    rw [show ended = r' from hend]
    exact trail_congr hscopes hrest
  · right
    let process : ProcessContext :=
      ⟨(env.getProcessWithRights (r.tables up.ref) up args.processHandle
        fxRightWrite).2⟩
    have hstarted : startedEntry env args running entry r =
        inScope (running.start process) (entry (running.start process)) := by
      have hprocess : startedProcess env args r = some process := by
        have hcurrent : ProcessDispatcher.getCurrent r.tlScopes = .ok up :=
          hcurrent
        rw [startedProcess, hcurrent]
      rw [startedEntry, hprocess]
    have hinside : Realm.trail
        { r' with tlScopes := r'.tlScopes ++ [process] } =
          (r.trail.calling running).pushed process :=
      congrArg (Trail.pushed · process) (trail_congr hscopes hrest)
    have hended : ended = endState (scope process
        (startedEntry env args running entry r)) r' := hend
    refine ⟨process, _, hinside ▸ hentry (running.start process) _, ?_⟩
    rw [hended, hstarted]
    exact leaves_scope process (running.start process) _ r'

theorem ran_run (code : UserCode) (running : Running) (r : KernelState) :
    Ran running r.trail (endState (code.run running) r).trail := by
  induction code generalizing running r with
  | ret => exact .ended
  | fail e => exact .ended
  | processCreate env args next hnext =>
      refine ran_of_keeps (fun r => ?_) fun outcome => hnext outcome running
      rw [endState_processCreate, trail_withObjects]
  | processStart env args entry next hentry hnext =>
      rw [UserCode.run, endState_bind (EStateM.run_get r)]
      have hstart := sysProcessStart_leaves env args running r hentry
      simp only at hstart ⊢
      generalize sysProcessStart (env.running (startedEntry env args running
        (fun inside => entry.run inside) r)) args = code at hstart ⊢
      obtain ⟨outcome, hrun⟩ := exists_syscall running code r
      have hafter := hnext outcome running (endState code (r.calling running))
      rw [endState_bind hrun]
      rcases hstart with hkept | ⟨process, inside, hinside, hleaves⟩
      · rw [hkept] at hafter
        exact .called hafter
      · exact .started hinside hleaves hafter
  | processExit retcode next hnext =>
      refine ran_of_keeps (fun r => ?_) fun outcome => hnext outcome running
      rw [endState_sysProcessExit]
  | unimplemented next hnext =>
      exact ran_of_keeps (fun _ => rfl) fun outcome => hnext outcome running
  | await continuation => exact .ended

theorem turned_kernelTurn (r : KernelState) (turn : KernelTurn) :
    Turned r.trail (kernelTurn r turn).trail := by
  cases turn with
  | userboot initial =>
      let running := Running.boot r.userboot
      change Turned r.trail (endState (startUserboot
        (inScope running (initial.run running))) r).trail
      rcases endState_startUserboot
        (inScope running (initial.run running)) r with hend | hend
      · rw [hend]
        exact .idle
      · rw [hend]
        exact .booted (ran_run initial running
            { r.booted with tlScopes := r.tlScopes ++ [r.userboot] })
          (leaves_scope r.userboot running _ r.booted)
  | resume i =>
      rw [kernelTurn]
      split
      next => exact .idle
      next process continuation _ =>
        let r' := r.withPending (r.suspended.eraseIdx i)
        rw [UserCode.resume, endState_bind (EStateM.run_modify _ r')]
        exact .resumed (ran_run continuation (.resumed process)
          (r'.observed (.resumed process) .resumed))

/-- What holds of the trail at first and is kept by every turn holds of the
trail of every run. -/
theorem exec_trail {I : Trail → Prop} (hstart : I .start)
    (hturned : ∀ t t', Turned t t' → I t → I t') (turns : List KernelTurn) :
    I (kernelMachine.exec .new turns).trail := by
  have hpreserved : kernelMachine.Preserves fun r => I r.trail :=
    fun r turn => hturned _ _ (turned_kernelTurn r turn)
  exact hpreserved.exec (s := .new) hstart turns

/-! ## The depth of the stack -/

/-- The stack grows by one context for each exception that leaves a scope. -/
def Balanced (t t' : Trail) : Prop :=
  ∃ n, t'.escapes.length = t.escapes.length + n ∧
    t'.tlScopes.length = t.tlScopes.length + n

namespace Balanced

variable {t t' t'' : Trail}

theorem of_same (hescapes : t'.escapes = t.escapes)
    (hscopes : t'.tlScopes = t.tlScopes) : Balanced t t' :=
  ⟨0, congrArg List.length hescapes, congrArg List.length hscopes⟩

theorem trans (h : Balanced t t') (h' : Balanced t' t'') : Balanced t t'' := by
  obtain ⟨n, hescapes, hscopes⟩ := h
  obtain ⟨m, hescapes', hscopes'⟩ := h'
  exact ⟨n + m, by omega, by omega⟩

/-- Entering a scope and leaving it. -/
theorem leave {running : Running} {context : ProcessContext}
    {inside outside : Trail} (h : Balanced (t.pushed context) inside)
    (hleaves : Leaves running inside outside) : Balanced t outside := by
  obtain ⟨n, hescapes, hscopes⟩ := h
  simp only [Trail.pushed, List.length_append, List.length_singleton] at *
  cases hleaves with
  | returned =>
      refine ⟨n, hescapes, ?_⟩
      rw [Trail.popped, List.length_dropLast]
      omega
  | threw =>
      refine ⟨n + 1, ?_, ?_⟩
      · rw [Trail.escaped, List.length_append, List.length_singleton, hescapes]
        rfl
      · rw [Trail.escaped, hscopes]
        omega

end Balanced

theorem Ran.balanced {running : Running} {t t' : Trail}
    (h : Ran running t t') : Balanced t t' := by
  induction h with
  | ended => exact .of_same rfl rfl
  | called _ ih => exact ih
  | started _ hleaves _ ihentry ihnext =>
      exact (ihentry.leave hleaves).trans ihnext

theorem Turned.balanced {t t' : Trail} (h : Turned t t') : Balanced t t' := by
  cases h with
  | idle => exact .of_same rfl rfl
  | booted hrun hleaves => exact hrun.balanced.leave hleaves
  | resumed hrun => exact hrun.balanced

/-- Between turns the stack holds as many contexts as exceptions have left
scopes, whether they were caught or not. -/
theorem exec_length_tlScopes (turns : List KernelTurn) :
    let r := kernelMachine.exec .new turns
    r.tlScopes.length = r.escapes.length := by
  refine exec_trail (I := fun t => t.tlScopes.length = t.escapes.length) rfl
    (fun t t' hturned ht => ?_) turns
  obtain ⟨n, hescapes, hscopes⟩ := hturned.balanced
  omega

end Fiber.Kernel
