import Fiber.Kernel.System.Userland
import Fiber.Support.Refinement
import Mathlib.Logic.Function.Iterate

/-!
# A kernel that has booted refuses every syscall

Userboot runs in the only scope there is, and the lookup of the running process
reads the second one.  So every syscall that needs the running process throws,
and none ever puts a second scope on the stack.  Nothing that user code does,
catches or resumes gets out of this: it behaves as over a kernel without any
state.
-/

namespace Fiber.Kernel

open Fiber.Support

/-! ## The kernel without state -/

/-- How many syscalls were refused, and the continuations that wait. -/
structure Refusing where
  calls : ℕ
  pending : List UserCode

namespace Refusing

def start : Refusing := ⟨0, []⟩

/-- One more syscall is refused. -/
def refuse (t : Refusing) : Refusing := { t with calls := t.calls + 1 }

def suspend (t : Refusing) (continuation : UserCode) : Refusing :=
  { t with pending := t.pending ++ [continuation] }

end Refusing

/-- The only check before the lookup of the running process is that of the
options. -/
def createRefusal (args : ProcessCreateArgs) : Except JsError Status :=
  if args.ValidOptions then .error .typeError else .ok .errInvalidArgs

/-- The code over a kernel that refuses all syscalls. -/
def UserCode.refused : UserCode → EStateM JsError Refusing Unit
  | .ret => pure ()
  | .fail e => throw e
  | .processCreate _ args next => do
      modify Refusing.refuse
      (next (createRefusal args)).refused
  | .processStart _ _ _ next => do
      modify Refusing.refuse
      (next (.error .typeError)).refused
  | .processExit _ next => do
      modify Refusing.refuse
      (next (.error .typeError)).refused
  | .unimplemented next => do
      modify Refusing.refuse
      (next (.error (.error "not implemented"))).refused
  | .await continuation => modify fun t => t.suspend continuation

def refusingTurn (t : Refusing) : KernelTurn → Refusing
  | .userboot initial => endState initial.refused t
  | .resume i =>
      match t.pending[i]? with
      | none => t
      | some continuation =>
          endState continuation.refused
            { t with pending := t.pending.eraseIdx i }

def refusingMachine : Machine Refusing KernelTurn Unit where
  step t turn := (refusingTurn t turn, ())

/-! ## Syscalls with at most one scope -/

/-- No lookup has found a process yet: there are these tables and objects, and
the syscalls and the continuations are those of `t`. -/
structure Idle (tables : HandleTables) (starts : List EntryState) (o : Objects)
    (t : Refusing) (r : KernelState) : Prop where
  tables : r.tables = tables
  starts : r.rest.starts = starts
  objects : r.objects = o
  pending : r.pending = t.pending
  lookups : r.lookups = List.replicate t.calls (.error .typeError)

theorem getCurrent_of_alone {tlScopes : List ProcessContext}
    (halone : tlScopes.length ≤ 1) :
    ProcessDispatcher.getCurrent tlScopes = .error .typeError := by
  have hnone : tlScopes[scopeLength - 1]? = none :=
    List.getElem?_eq_none_iff.mpr halone
  rw [ProcessDispatcher.getCurrent, hnone]

namespace Idle

variable {tables : HandleTables} {starts : List EntryState} {o : Objects}
  {t : Refusing} {r : KernelState}

/-- The stack does not matter. -/
theorem of_rest (h : Idle tables starts o t r) {r' : KernelState}
    (hrest : r'.rest = r.rest) : Idle tables starts o t r' := by
  obtain ⟨tlScopes, rest⟩ := r
  obtain ⟨tlScopes', rest'⟩ := r'
  obtain rfl : rest' = rest := hrest
  exact { h with }

theorem proceed (h : Idle tables starts o t r) (running : Running) :
    Idle tables starts o t (r.observed running .step) :=
  { h with
    lookups := by
      rw [lookups_observed, h.lookups]
      exact List.append_nil _ }

/-- A syscall is made for no process. -/
theorem calling (h : Idle tables starts o t r) (running : Running)
    (halone : r.tlScopes.length ≤ 1) :
    Idle tables starts o t.refuse (r.calling running) :=
  { h with
    lookups := by
      rw [Realm.calling, lookups_observed, h.lookups,
        getCurrent_of_alone halone, Refusing.refuse, List.replicate_succ']
      rfl }

theorem resumed (h : Idle tables starts o t r) (process : ProcessContext) :
    Idle tables starts o t (r.observed (.resumed process) .resumed) :=
  { h with
    lookups := by
      rw [lookups_observed, h.lookups]
      exact List.append_nil _ }

theorem suspend (h : Idle tables starts o t r) (process : ProcessContext)
    (continuation : UserCode) :
    Idle tables starts o (t.suspend continuation)
      (r.withPending (r.suspended ++ [(process, continuation)])) :=
  { h with
    pending := by
      rw [Refusing.suspend, ← h.pending]
      exact List.map_append }

theorem eraseIdx (h : Idle tables starts o t r) (i : ℕ) :
    Idle tables starts o { t with pending := t.pending.eraseIdx i }
      (r.withPending (r.suspended.eraseIdx i)) :=
  { h with
    pending := by
      rw [← h.pending]
      exact (List.eraseIdx_map ..).symm }

theorem escaped (h : Idle tables starts o t r) (running : Running) :
    Idle tables starts o t (r.escaped running) :=
  { h with }

end Idle

section

variable {r : KernelState} (halone : r.tlScopes.length ≤ 1)

include halone

theorem captured_processCreate (env : Environment)
    (args : ProcessCreateArgs) :
    (captured (processCreate env args)).run r =
      .ok (createRefusal args) r := by
  by_cases hoptions : args.ValidOptions
  · have hrefused : (processCreate env args).run r = .error .typeError r := by
      rw [processCreate, EStateM.run_bind, EStateM.run_get]
      exact run_onObjects_of_error (sysProcessCreate_of_no_current hoptions
        (getCurrent_of_alone halone))
    rw [captured_of_error hrefused, createRefusal, if_pos hoptions]
  · have hrefused : (processCreate env args).run r = .ok .errInvalidArgs r := by
      rw [processCreate, EStateM.run_bind, EStateM.run_get]
      exact run_onObjects_of_ok (sysProcessCreate_of_invalid_options hoptions)
    rw [captured_of_ok hrefused, createRefusal, if_neg hoptions]

theorem captured_sysProcessStart (env : StartEnvironment Userland)
    (args : ProcessStartArgs) :
    (captured (sysProcessStart env args)).run r = .ok (.error .typeError) r :=
  captured_of_error
    (sysProcessStart_of_no_current (getCurrent_of_alone halone))

theorem captured_sysProcessExit (retcode : ℤ) :
    (captured (sysProcessExit retcode)).run r = .ok (.error .typeError) r := by
  apply captured_of_error
  rw [sysProcessExit, EStateM.run_bind, EStateM.run_get]
  simp only [ProcessDispatcher.exitCurrent_eq, getCurrent_of_alone halone]
  rfl

end

/-- A syscall is recorded, and then refused. -/
theorem run_syscall_of_refused {α : Type} {code : UserJs α}
    {refusal : Except JsError α} {r : KernelState} {running : Running}
    (hrefused : (captured code).run (r.calling running) =
      .ok refusal (r.calling running)) :
    (syscall running code).run r = .ok refusal (r.calling running) := by
  rw [syscall, EStateM.run_bind, EStateM.run_modify]
  exact hrefused

/-- The kernel is idle, on this stack. -/
def IdleOn (tlScopes : List ProcessContext) (tables : HandleTables)
    (starts : List EntryState) (o : Objects) (r : KernelState)
    (t : Refusing) : Prop :=
  r.tlScopes = tlScopes ∧ Idle tables starts o t r

section

variable {tlScopes : List ProcessContext} (halone : tlScopes.length ≤ 1)
  {tables : HandleTables} {starts : List EntryState} {o : Objects}

include halone

/-- The code makes a syscall, and the model refuses one. -/
theorem matches_syscall {α : Type} {code : UserJs α}
    {refusal : Except JsError α} {next : Except JsError α → UserCode}
    {running : Running} {r : KernelState} {t : Refusing}
    (hidle : IdleOn tlScopes tables starts o r t)
    (hrefused : ∀ r : KernelState, r.tlScopes.length ≤ 1 →
      (captured code).run r = .ok refusal r)
    (hnext : ∀ r t, IdleOn tlScopes tables starts o r t →
      Matches (IdleOn tlScopes tables starts o)
        ((next refusal).run running) r (next refusal).refused t) :
    Matches (IdleOn tlScopes tables starts o)
      (do
        let outcome ← syscall running code
        (next outcome).run running) r
      (do
        modify Refusing.refuse
        (next refusal).refused) t := by
  obtain ⟨rfl, hidle⟩ := hidle
  exact .step_code (run_syscall_of_refused (hrefused _ halone))
    (.step_model (EStateM.run_modify _ t)
      (hnext _ _ ⟨rfl, hidle.calling running halone⟩))

/-- With at most one scope, code behaves as if refused everything. -/
theorem run_matches_refused (code : UserCode) (running : Running)
    {r : KernelState} {t : Refusing}
    (hidle : IdleOn tlScopes tables starts o r t) :
    Matches (IdleOn tlScopes tables starts o) (code.run running) r
      code.refused t := by
  induction code generalizing running r t with
  | ret => exact .ok () ⟨hidle.1, hidle.2.proceed running⟩
  | fail e => exact .error e ⟨hidle.1, hidle.2.proceed running⟩
  | processCreate env args next hnext =>
      exact matches_syscall halone hidle
        (fun _ halone => captured_processCreate halone env args)
        fun _ _ => hnext _ running
  | processStart env args entry next hentry hnext =>
      exact .step_code (EStateM.run_get r) (matches_syscall halone hidle
        (fun _ halone => captured_sysProcessStart halone _ args)
        fun _ _ => hnext _ running)
  | processExit retcode next hnext =>
      exact matches_syscall halone hidle
        (fun _ halone => captured_sysProcessExit halone retcode)
        fun _ _ => hnext _ running
  | unimplemented next hnext =>
      exact matches_syscall halone hidle (fun _ _ => captured_of_error rfl)
        fun _ _ => hnext _ running
  | await continuation =>
      exact .ok () ⟨hidle.1, (hidle.2.proceed running).suspend _ _⟩

theorem inScope_matches_refused (code : UserCode) (running : Running)
    {r : KernelState} {t : Refusing}
    (hidle : IdleOn tlScopes tables starts o r t) :
    Matches (IdleOn tlScopes tables starts o)
      (inScope running (code.run running)) r code.refused t :=
  Matches.onThrow (fun _ _ h => ⟨h.1, h.2.escaped running⟩)
    (run_matches_refused halone code running hidle)

/-! ## Turns -/

theorem kernelTurn_resume {r : KernelState} {t : Refusing}
    (hidle : IdleOn tlScopes tables starts o r t) (i : ℕ) :
    IdleOn tlScopes tables starts o (kernelTurn r (.resume i))
      (refusingTurn t (.resume i)) := by
  have hnext : t.pending[i]? = r.suspended[i]?.map Prod.snd := by
    rw [← hidle.2.pending, Realm.pending, List.getElem?_map]
  rw [kernelTurn, refusingTurn, hnext]
  cases r.suspended[i]? with
  | none => exact hidle
  | some suspended =>
      let r' := (r.withPending (r.suspended.eraseIdx i)).observed
        (.resumed suspended.1) .resumed
      have hrun := run_matches_refused halone suspended.2
        (.resumed suspended.1) (r := r')
        ⟨hidle.1, (hidle.2.eraseIdx i).resumed suspended.1⟩
      exact (Matches.step_code (EStateM.run_modify _ _) hrun).endState

end

/-- A root job that admits children. -/
def RootReady (o : Objects) : Prop :=
  o.jobs.Allocated rootJob ∧ (o.jobs.get rootJob).state = .ready

/-- Userboot is listed by the root job. -/
def Objects.addUserboot (o : Objects) : Objects :=
  o.addProcess rootJob "userboot"

theorem RootReady.addUserboot {o : Objects} (h : RootReady o) :
    RootReady o.addUserboot := by
  refine ⟨h.1, ?_⟩
  rw [Objects.addUserboot, Job.addProcess_get]
  exact h.2

/-- Leaving a scope does not make the stack longer. -/
theorem length_endState_scope_le {τ : Type} (context : ProcessContext)
    (fn : Js τ Unit) (r : Realm τ) :
    (endState (scope context fn) r).tlScopes.length ≤
      (endState fn { r with
        tlScopes := r.tlScopes ++ [context] }).tlScopes.length := by
  rcases endState_scope context fn r with hend | hend
  · rw [hend]
  · rw [hend]
    exact (List.dropLast_sublist _).length_le

theorem endState_startUserboot_of_ready {r : KernelState}
    (hready : RootReady r.objects) (initial : UserJs Unit) :
    endState (startUserboot initial) r =
      endState (scope r.userboot initial)
        (r.withObjects r.objects.addUserboot) := by
  have hcreate := ProcessDispatcher.create_of_ready hready.1 hready.2
    "userboot" 0
  rw [startUserboot, endState_bind (run_onObjects_of_ok hcreate)]
  rfl

section

variable {tables : HandleTables} {starts : List EntryState} {o : Objects}

/-- Userboot runs in the only scope, which it may leave behind. -/
theorem kernelTurn_userboot (hready : RootReady o) {r : KernelState}
    {t : Refusing} (hidle : IdleOn [] tables starts o r t)
    (initial : UserCode) :
    let r' := kernelTurn r (.userboot initial)
    r'.tlScopes.length ≤ 1 ∧
      Idle tables starts o.addUserboot (refusingTurn t (.userboot initial))
        r' := by
  intro r'
  obtain ⟨hscopes, hrest⟩ := hidle
  obtain rfl : r.objects = o := hrest.objects
  let running := Running.boot r.userboot
  let booted := r.withObjects r.objects.addUserboot
  let inside : KernelState :=
    { booted with tlScopes := r.tlScopes ++ [r.userboot] }
  have halone : [r.userboot].length ≤ 1 := Nat.le_refl 1
  have hinside : IdleOn [r.userboot] tables starts r.objects.addUserboot
      inside t := by
    refine ⟨?_, { hrest with objects := rfl }⟩
    change r.tlScopes ++ [r.userboot] = [r.userboot]
    rw [hscopes]
    rfl
  have hended :=
    (inScope_matches_refused halone initial running hinside).endState
  have hturn : r' = endState (scope r.userboot
      (inScope running (initial.run running))) booted :=
    endState_startUserboot_of_ready hready _
  rw [hturn]
  refine ⟨?_, ?_⟩
  · refine Nat.le_trans (length_endState_scope_le ..) ?_
    exact (congrArg List.length hended.1).le
  · exact hended.2.of_rest (rest_endState_scope r.userboot _ booted)

/-! ## Runs -/

def KernelTurn.isUserboot : KernelTurn → Bool
  | .userboot _ => true
  | .resume _ => false

/-- As long as userboot starts outside of all scopes, a run gets nowhere. -/
theorem exec_refused {r : KernelState} {t : Refusing}
    (hidle : Idle tables starts o t r) (halone : r.tlScopes.length ≤ 1)
    (hready : RootReady o) (turns : List KernelTurn)
    (hboots : ∀ e ∈ kernelMachine.trace r turns,
      e.action.isUserboot = true → e.before.tlScopes = []) :
    Idle tables starts
      (Objects.addUserboot^[turns.countP KernelTurn.isUserboot] o)
      (refusingMachine.exec t turns) (kernelMachine.exec r turns) := by
  induction turns generalizing r o t with
  | nil => exact hidle
  | cons turn turns ih =>
      have hlater := fun e he => hboots e (List.mem_cons_of_mem _ he)
      cases turn with
      | userboot initial =>
          have hscopes : r.tlScopes = [] := hboots _ List.mem_cons_self rfl
          have hturn := kernelTurn_userboot hready ⟨hscopes, hidle⟩ initial
          rw [List.countP_cons_of_pos rfl, Function.iterate_succ_apply]
          exact ih hturn.2 hturn.1 hready.addUserboot hlater
      | resume i =>
          have hturn := kernelTurn_resume halone ⟨rfl, hidle⟩ i
          rw [List.countP_cons_of_neg Bool.false_ne_true]
          exact ih hturn.2 (hturn.1 ▸ halone) hready hlater

end

theorem rootReady_new : RootReady KernelState.new.objects :=
  ⟨by decide, rfl⟩

/-- In every run from the constructor on in which userboot never starts inside
of a scope, all user code behaves as over a kernel that refuses every syscall:
as many syscalls are made, for no process, and the same continuations wait.  Of
the kernel's state only the processes of userboot are new. -/
theorem kernel_refuses_syscalls (turns : List KernelTurn)
    (hboots : ∀ e ∈ kernelMachine.trace .new turns,
      e.action.isUserboot = true → e.before.tlScopes = []) :
    let r := kernelMachine.exec .new turns
    let t := refusingMachine.exec .start turns
    r.pending = t.pending ∧
      r.lookups = List.replicate t.calls (.error .typeError) ∧
      r.tables = KernelState.new.tables ∧
      r.rest.starts = [] ∧
      r.objects = Objects.addUserboot^[turns.countP KernelTurn.isUserboot]
        KernelState.new.objects := by
  intro r t
  have hidle : Idle KernelState.new.tables [] _ t r := exec_refused
    (r := .new) ⟨rfl, rfl, rfl, rfl, rfl⟩ (Nat.zero_le 1) rootReady_new turns
    hboots
  exact ⟨hidle.pending, hidle.lookups, hidle.tables, hidle.starts,
    hidle.objects⟩

/-- Userboot is started again after a first one that was refused its exit and
went on later. -/
theorem kernel_refuses_syscalls_rebooted :
    (kernelMachine.exec .new
      [.userboot (.processExit 0 fun _ => .await .ret), .resume 0,
        .userboot .ret]).objects =
      Objects.addUserboot^[2] KernelState.new.objects := by
  refine (kernel_refuses_syscalls
    [.userboot (.processExit 0 fun _ => .await .ret), .resume 0,
      .userboot .ret] ?_).2.2.2.2
  rintro e he hboot
  rcases List.mem_cons.mp he with rfl | he
  · rfl
  rcases List.mem_cons.mp he with rfl | he
  · nomatch hboot
  · obtain rfl := List.mem_singleton.mp he
    rfl

/-- A second userboot after one that threw is the second scope, and can create
a process. -/
example :
    (kernelMachine.exec .new
      [.userboot (.fail .typeError),
        .userboot (.processCreate (.ofLookup fun _ _ _ => (.ok, rootJob))
          ⟨5, ⟨[], 0, 0⟩, 0, 0, 0, 1⟩ fun _ => .ret)]).objects.processes =
      3 := by
  decide

end Fiber.Kernel
