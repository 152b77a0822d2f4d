import Fiber.Kernel.Syscall.ProcessCreate
import Fiber.Kernel.Syscall.ProcessStart
import Fiber.Support.Outcome

/-!
# User code over the kernel

`startUserboot` runs the first process, processes start further ones, and all
of them make syscalls on one kernel.  A process is a JavaScript function, so it
catches what a syscall throws, or does not, and it may await: what follows is
run by the event loop later, in any order, and under whatever scopes are there
by then.

The state is the scope stack, the handle tables, the jobs and processes, and
the continuations that wait to be run.  Beside it everything is recorded that
tells whose code runs: every step of every process, with the scopes around it
and with what the lookup of the running process gives at a syscall, and every
exception that leaves a scope.  No code reads the record.
-/

namespace Fiber.Kernel

open Fiber.Support

/-- Code of a process, as a tree: a syscall is followed by what happens next,
which depends on its outcome, and it comes with what the placeholders answer
this time.  The entry of a start is what the embedder runs as the process. -/
inductive UserCode
  | ret
  | fail (e : JsError)
  | processCreate (env : Environment) (args : ProcessCreateArgs)
      (next : Except JsError Status → UserCode)
  | processStart (env : StartEnvironment Unit) (args : ProcessStartArgs)
      (entry : UserCode) (next : Except JsError (Option FxStatus) → UserCode)
  | processExit (retcode : ℤ) (next : Except JsError Unit → UserCode)
  | unimplemented (next : Except JsError Status → UserCode)
  | await (continuation : UserCode)

/-! ## The record -/

/-- Whose code runs: the process it belongs to, the processes whose code waits
in this turn of the event loop for it to end, and the contexts of the scopes
entered in this turn and not left yet.  The outermost ones come first. -/
structure Running where
  process : ProcessContext
  waiting : List ProcessContext
  scopes : List ProcessContext
  deriving DecidableEq

namespace Running

/-- Userboot begins a turn, in a scope. -/
def boot (process : ProcessContext) : Running := ⟨process, [], [process]⟩

/-- A continuation begins a turn, and there is no scope around it. -/
def resumed (process : ProcessContext) : Running := ⟨process, [], []⟩

/-- The code that runs starts a process, in a scope. -/
def start (running : Running) (process : ProcessContext) : Running where
  process := process
  waiting := running.waiting ++ [running.process]
  scopes := running.scopes ++ [process]

end Running

/-- What code does in a step: it goes on, begins as a continuation, or makes a
syscall, at which the lookup of the running process gives `lookup`. -/
inductive Moment
  | step
  | resumed
  | syscall (lookup : Except JsError ProcessDispatcher)
  deriving DecidableEq

/-- What the lookup gives, if the step is a syscall. -/
def Moment.lookup? : Moment → Option (Except JsError ProcessDispatcher)
  | .step | .resumed => none
  | .syscall lookup => some lookup

/-- One step of code, with the scope stack it is made under, and the processes
whose scopes were left by exceptions until then. -/
structure Observation where
  running : Running
  left : List ProcessContext
  tlScopes : List ProcessContext
  moment : Moment
  deriving DecidableEq

/-- The jobs and the processes, the continuations in the event loop, all steps
made so far, and all code that an exception has left together with its scope. -/
structure Userland where
  objects : Objects
  pending : List (ProcessContext × UserCode)
  observations : List Observation
  escapes : List Running

abbrev KernelState := Realm (Custody Userland)

abbrev UserJs := Js (Custody Userland)

namespace Realm

def tables (r : KernelState) : HandleTables := r.rest.tables

def objects (r : KernelState) : Objects := r.rest.rest.objects

/-- The continuations in the event loop, with their processes. -/
def suspended (r : KernelState) : List (ProcessContext × UserCode) :=
  r.rest.rest.pending

def pending (r : KernelState) : List UserCode := r.suspended.map Prod.snd

def observations (r : KernelState) : List Observation :=
  r.rest.rest.observations

def escapes (r : KernelState) : List Running := r.rest.rest.escapes

/-- What the lookup of the running process gave for each syscall so far. -/
def lookups (r : KernelState) : List (Except JsError ProcessDispatcher) :=
  r.observations.filterMap fun o => o.moment.lookup?

/-- The processes whose scopes were left by exceptions, in this order. -/
def left (r : KernelState) : List ProcessContext :=
  r.escapes.map Running.process

def withObjects (r : KernelState) (o : Objects) : KernelState :=
  { r with rest := { r.rest with rest := { r.rest.rest with objects := o } } }

def withPending (r : KernelState) (pending : List (ProcessContext × UserCode)) :
    KernelState :=
  { r with rest :=
    { r.rest with rest := { r.rest.rest with pending := pending } } }

/-- One more step is made. -/
def observed (r : KernelState) (running : Running) (moment : Moment) :
    KernelState :=
  let observations :=
    r.observations ++ [⟨running, r.left, r.tlScopes, moment⟩]
  { r with rest :=
    { r.rest with rest := { r.rest.rest with observations := observations } } }

/-- One more syscall is made. -/
def calling (r : KernelState) (running : Running) : KernelState :=
  r.observed running (.syscall (ProcessDispatcher.getCurrent r.tlScopes))

/-- One more exception leaves code together with its scope. -/
def escaped (r : KernelState) (running : Running) : KernelState :=
  let escapes := r.escapes ++ [running]
  { r with rest :=
    { r.rest with rest := { r.rest.rest with escapes := escapes } } }

end Realm

/-! ## Syscalls -/

/-- Code over the objects of the kernel. -/
def onObjects {α : Type} (code : KernelCode α) : UserJs α := fun r =>
  match code r.objects with
  | .ok a o => .ok a (r.withObjects o)
  | .error e o => .error e (r.withObjects o)

def processCreate (env : Environment) (args : ProcessCreateArgs) :
    UserJs Status := do
  let r ← get
  onObjects (sysProcessCreate env r.tlScopes args)

/-- What `sys_process_start` relies on, with the embedder's function. -/
def StartEnvironment.running {ρ : Type} (env : StartEnvironment Unit)
    (entry : Js (Custody ρ) Unit) : StartEnvironment ρ where
  getProcessWithRights := env.getProcessWithRights
  getThreadWithRights := env.getThreadWithRights
  threadProcess := env.threadProcess
  threadStart := env.threadStart
  mapHandleToValue := env.mapHandleToValue
  zxErrAccessDenied := env.zxErrAccessDenied
  zxErrAccessDenied_ne := env.zxErrAccessDenied_ne
  onProcessStart := fun _ _ => entry

def sysProcessExit (retcode : ℤ) : UserJs Unit := do
  let r ← get
  match ProcessDispatcher.exitCurrent r.tlScopes retcode with
  | .ok () => pure ()
  | .error e => throw e

/-- `todo()`, the whole body of `sys_channel_create`, `sys_handle_close` and
`sys_job_create`. -/
def todo : UserJs Status :=
  throw (.error "not implemented")

/-! ## Code -/

/-- Code makes a step. -/
def proceed (running : Running) : UserJs Unit :=
  modify fun r => r.observed running .step

/-- User code makes a syscall, and sees the outcome. -/
def syscall {α : Type} (running : Running) (code : UserJs α) :
    UserJs (Except JsError α) := do
  modify fun r => r.calling running
  captured code

/-- The rest of the code goes to the event loop. -/
def suspend (process : ProcessContext) (continuation : UserCode) :
    UserJs Unit :=
  modify fun r => r.withPending (r.suspended ++ [(process, continuation)])

/-- The function of a scope.  An exception that it throws leaves the scope. -/
def inScope (running : Running) (code : UserJs Unit) : UserJs Unit :=
  onThrow (fun r => r.escaped running) code

/-- The process that `sys_process_start` looks up, if there is a running
process to look it up for. -/
def startedProcess (env : StartEnvironment Unit) (args : ProcessStartArgs)
    (r : KernelState) : Option ProcessContext :=
  match ProcessDispatcher.getCurrent r.tlScopes with
  | .ok up => some
      ⟨(env.getProcessWithRights (r.tables up.ref) up args.processHandle
        fxRightWrite).2⟩
  | .error _ => none

/-- What the embedder runs for a start: the entry, as code of that process. -/
def startedEntry (env : StartEnvironment Unit) (args : ProcessStartArgs)
    (running : Running) (entry : Running → UserJs Unit) (r : KernelState) :
    UserJs Unit :=
  match startedProcess env args r with
  | some process =>
      inScope (running.start process) (entry (running.start process))
  | none => pure ()

def UserCode.run (running : Running) : UserCode → UserJs Unit
  | .ret => proceed running
  | .fail e => do
      proceed running
      throw e
  | .processCreate env args next => do
      let outcome ← syscall running (Kernel.processCreate env args)
      (next outcome).run running
  | .processStart env args entry next => do
      let r ← get
      let entry := startedEntry env args running (fun inside => entry.run inside)
      let outcome ← syscall running
        (sysProcessStart (env.running (entry r)) args)
      (next outcome).run running
  | .processExit retcode next => do
      let outcome ← syscall running (sysProcessExit retcode)
      (next outcome).run running
  | .unimplemented next => do
      let outcome ← syscall running todo
      (next outcome).run running
  | .await continuation => do
      proceed running
      suspend running.process continuation

/-- A continuation of a process is run. -/
def UserCode.resume (process : ProcessContext) (continuation : UserCode) :
    UserJs Unit := do
  modify fun r => r.observed (.resumed process) .resumed
  continuation.run (.resumed process)

/-- The job that the constructor of the kernel makes. -/
def rootJob : ℕ := 0

def startUserboot (initial : UserJs Unit) : UserJs Unit := do
  let result ← onObjects (ProcessDispatcher.create rootJob "userboot" 0)
  match result.unwrap with
  | .ok made => scope ⟨made.1⟩ initial
  | .error e => throw e

/-! ## The event loop -/

/-- A turn of the event loop: the embedder starts a userboot process, or the
continuation at some place of the pending ones is run. -/
inductive KernelTurn
  | userboot (initial : UserCode)
  | resume (i : ℕ)

/-- The context of the next userboot process. -/
def Realm.userboot (r : KernelState) : ProcessContext :=
  ⟨r.objects.processNamed "userboot"⟩

def kernelTurn (r : KernelState) : KernelTurn → KernelState
  | .userboot initial =>
      let running := Running.boot r.userboot
      endState (startUserboot (inScope running (initial.run running))) r
  | .resume i =>
      match r.suspended[i]? with
      | none => r
      | some (process, continuation) =>
          endState (continuation.resume process)
            (r.withPending (r.suspended.eraseIdx i))

/-- The kernel with its embedder, as a machine over turns. -/
def kernelMachine : Machine KernelState KernelTurn Unit where
  step r turn := (kernelTurn r turn, ())

/-- The kernel after its constructor. -/
def KernelState.new : KernelState where
  tlScopes := []
  rest :=
    { tables := fun _ => .empty
      starts := []
      rest :=
        { objects := (Job.perform JobDispatcher.createRoot .init).1
          pending := []
          observations := []
          escapes := [] } }

/-! ## What every run keeps -/

/-- `P` relates the states before and after whatever user code and the event
loop can do. -/
structure Throughout (P : KernelState → KernelState → Prop) : Prop where
  refl : ∀ r, P r r
  trans : ∀ r r' r'', P r r' → P r' r'' → P r r''
  processCreate : ∀ env args r, P r (endState (processCreate env args) r)
  processStart : ∀ (env : StartEnvironment Unit) args entry,
    (∀ r, P r (endState entry r)) →
    ∀ r, P r (endState (sysProcessStart (env.running entry) args) r)
  userboot : ∀ initial, (∀ r, P r (endState initial r)) →
    ∀ r, P r (endState (startUserboot initial) r)
  pending : ∀ r pending, P r (r.withPending pending)
  observed : ∀ r running moment,
    (∀ lookup, moment.lookup? = some lookup →
      lookup = ProcessDispatcher.getCurrent r.tlScopes) →
    P r (r.observed running moment)
  escaped : ∀ r running, P r (r.escaped running)

/-- A scope ends where its function does, and takes a context off the stack
unless the function throws. -/
theorem endState_scope {τ : Type} (context : ProcessContext) (fn : Js τ Unit)
    (r : Realm τ) :
    let r' := endState fn { r with tlScopes := r.tlScopes ++ [context] }
    endState (scope context fn) r = r' ∨
      endState (scope context fn) r =
        { r' with tlScopes := r'.tlScopes.dropLast } := by
  intro r'
  rw [scope, endState_bind (EStateM.run_modify _ r)]
  rcases hrun : fn.run { r with tlScopes := r.tlScopes ++ [context] } with
    ⟨⟨⟩, ended⟩ | ⟨e, ended⟩
  · obtain rfl : r' = ended := endState_of_ok hrun
    rw [endState_bind hrun]
    exact .inr rfl
  · obtain rfl : r' = ended := endState_of_error hrun
    left
    rw [endState, EStateM.run_bind, hrun]

/-- Leaving a scope, normally or not, changes the stack only. -/
theorem rest_endState_scope {τ : Type} (context : ProcessContext)
    (fn : Js τ Unit) (r : Realm τ) :
    (endState (scope context fn) r).rest =
      (endState fn { r with tlScopes := r.tlScopes ++ [context] }).rest := by
  rcases endState_scope context fn r with hend | hend <;>
  · rw [hend]

section

variable {ρ : Type} {env : StartEnvironment ρ} {args : ProcessStartArgs}
  {process : ProcessDispatcher}

/-- The embedder's function ends the syscall. -/
theorem rest_endState_runProcess (r : Realm (Custody ρ)) :
    (endState (runProcess env args process) r).rest =
      (endState (env.onProcessStart args.pc 0)
        { r with tlScopes := r.tlScopes ++ [⟨process⟩] }).rest := by
  rw [runProcess, endState_bind_of_keeps fun _ _ => rfl]
  exact rest_endState_scope ..

/-- The syscall itself changes only tables and threads: if it does not end
there, the embedder's function ends it, in the scope of the process that was
looked up. -/
theorem endState_sysProcessStart (env : StartEnvironment ρ)
    (args : ProcessStartArgs) (r : Realm (Custody ρ)) :
    ∃ r' : Realm (Custody ρ), r'.tlScopes = r.tlScopes ∧
      r'.rest.rest = r.rest.rest ∧
      (endState (sysProcessStart env args) r = r' ∨
        ∃ up, ProcessDispatcher.getCurrent r.tlScopes = .ok up ∧
          endState (sysProcessStart env args) r =
            endState (scope ⟨(env.processLookup args r up).2⟩
              (env.onProcessStart args.pc 0)) r') := by
  have hdelivered : ∀ {up process} {argument} {argNhv} {r'},
      (r.taking up args).deliver env process argument = (argNhv, r') →
        r'.tlScopes = r.tlScopes ∧ r'.rest.rest = r.rest.rest := by
    rintro up process (_ | handle) argNhv r' h <;>
    · obtain ⟨-, rfl⟩ := Prod.mk.inj h
      exact ⟨rfl, rfl⟩
  have hending := sysProcessStart_ending env args r
  rw [endState]
  generalize (sysProcessStart env args).run r = result at hending ⊢
  cases hending with
  | noCurrent => exact ⟨r, rfl, rfl, .inl rfl⟩
  | noProcess | noThread | foreignThread | noTransfer =>
      exact ⟨r.taking _ args, rfl, rfl, .inl rfl⟩
  | @notStarted up process thread argNhv r' _ _ _ hdeliver =>
      obtain ⟨hscopes, hrest⟩ := hdelivered hdeliver
      exact ⟨(r'.starting (args.entry argNhv)).remove process argNhv, hscopes,
        hrest, .inl rfl⟩
  | @started up process thread argNhv r' hfound _ _ hdeliver =>
      obtain ⟨hscopes, hrest⟩ := hdelivered hdeliver
      refine ⟨r'.starting (args.entry argNhv), hscopes, hrest,
        .inr ⟨up, hfound.current, ?_⟩⟩
      rw [hfound.processFound]
      exact endState_bind_of_keeps fun _ _ => rfl

end

theorem run_onObjects_of_ok {α : Type} {code : KernelCode α}
    {r : KernelState} {a : α} {o : Objects}
    (h : code.run r.objects = .ok a o) :
    (onObjects code).run r = .ok a (r.withObjects o) := by
  rw [EStateM.run] at h
  simp only [EStateM.run, onObjects, h]

theorem run_onObjects_of_error {α : Type} {code : KernelCode α}
    {r : KernelState} {e : JsError} {o : Objects}
    (h : code.run r.objects = .error e o) :
    (onObjects code).run r = .error e (r.withObjects o) := by
  rw [EStateM.run] at h
  simp only [EStateM.run, onObjects, h]

/-- Code over the objects changes nothing else. -/
theorem endState_onObjects {α : Type} (code : KernelCode α)
    (r : KernelState) :
    endState (onObjects code) r =
      r.withObjects (Job.perform code r.objects).1 := by
  rw [Job.perform]
  cases hrun : code.run r.objects with
  | ok a o => exact endState_of_ok (run_onObjects_of_ok hrun)
  | error e o => exact endState_of_error (run_onObjects_of_error hrun)

theorem endState_processCreate (env : Environment) (args : ProcessCreateArgs)
    (r : KernelState) :
    endState (processCreate env args) r = r.withObjects
      (Job.perform (sysProcessCreate env r.tlScopes args) r.objects).1 := by
  rw [processCreate, endState_bind (EStateM.run_get r), endState_onObjects]

/-- The objects once the userboot process is made, or is not. -/
def Realm.booted (r : KernelState) : KernelState :=
  r.withObjects
    (Job.perform (ProcessDispatcher.create rootJob "userboot" 0) r.objects).1

/-- Starting userboot ends without the process, or where its function ends. -/
theorem endState_startUserboot (initial : UserJs Unit) (r : KernelState) :
    endState (startUserboot initial) r = r.booted ∨
      endState (startUserboot initial) r =
        endState (scope r.userboot initial) r.booted := by
  have hbooted := endState_onObjects
    (ProcessDispatcher.create rootJob "userboot" 0) r
  by_cases hjob : r.objects.jobs.Allocated rootJob
  · by_cases hstate : (r.objects.jobs.get rootJob).state = .ready
    · have hcreate := run_onObjects_of_ok
        (ProcessDispatcher.create_of_ready hjob hstate "userboot" 0)
      rw [endState_of_ok hcreate] at hbooted
      right
      rw [startUserboot, endState_bind hcreate, hbooted]
      rfl
    · have hcreate := run_onObjects_of_ok
        (ProcessDispatcher.create_of_not_ready hjob hstate "userboot" 0)
      rw [endState_of_ok hcreate] at hbooted
      left
      rw [startUserboot, endState_bind hcreate, hbooted]
      rfl
  · have hcreate := run_onObjects_of_error
      (ProcessDispatcher.create_of_not_allocated hjob "userboot" 0)
    rw [endState_of_error hcreate] at hbooted
    left
    rw [startUserboot, endState, EStateM.run_bind, hcreate]
    exact hbooted

theorem endState_sysProcessExit (retcode : ℤ) (r : KernelState) :
    endState (sysProcessExit retcode) r = r := by
  rw [sysProcessExit, endState_bind (EStateM.run_get r)]
  cases ProcessDispatcher.exitCurrent r.tlScopes retcode <;> rfl

theorem exists_syscall {α : Type} (running : Running) (code : UserJs α)
    (r : KernelState) :
    ∃ outcome, (syscall running code).run r =
      .ok outcome (endState code (r.calling running)) := by
  obtain ⟨outcome, hrun⟩ := exists_captured code (r.calling running)
  refine ⟨outcome, ?_⟩
  rw [syscall, EStateM.run_bind, EStateM.run_modify]
  exact hrun

/-- Of the steps made, the syscalls add what their lookups gave. -/
theorem lookups_observed (r : KernelState) (running : Running)
    (moment : Moment) :
    (r.observed running moment).lookups =
      r.lookups ++ moment.lookup?.toList := by
  rw [Realm.lookups, Realm.lookups]
  change List.filterMap _ (r.observations ++ [_]) = _
  rw [List.filterMap_append]
  cases moment <;> rfl

namespace Throughout

variable {P : KernelState → KernelState → Prop}

/-- A step without a syscall. -/
theorem proceed (h : Throughout P) (running : Running) (r : KernelState) :
    P r (r.observed running .step) :=
  h.observed r running .step nofun

/-- After a syscall the code goes on where the syscall ended. -/
theorem syscall (h : Throughout P) {α : Type} {running : Running}
    {code : UserJs α} {next : Except JsError α → UserCode} {r : KernelState}
    (hfirst : ∀ r, P r (endState code r))
    (hnext : ∀ outcome r, P r (endState ((next outcome).run running) r)) :
    P r (endState (do
      let outcome ← syscall running code
      (next outcome).run running) r) := by
  obtain ⟨outcome, hrun⟩ := exists_syscall running code r
  rw [endState_bind hrun]
  have hcalling : P r (r.calling running) :=
    h.observed r running _ fun _ hlookup => (Option.some.inj hlookup).symm
  exact h.trans _ _ _ hcalling
    (h.trans _ _ _ (hfirst _) (hnext outcome _))

theorem inScope (h : Throughout P) {running : Running} {code : UserJs Unit}
    (hcode : ∀ r, P r (endState code r)) (r : KernelState) :
    P r (endState (inScope running code) r) := by
  rcases endState_onThrow (fun r => r.escaped running) code r with hend | hend
  · rw [Kernel.inScope, hend]
    exact hcode r
  · rw [Kernel.inScope, hend]
    exact h.trans _ _ _ (hcode r) (h.escaped _ running)

theorem run (h : Throughout P) (code : UserCode) (running : Running)
    (r : KernelState) : P r (endState (code.run running) r) := by
  induction code generalizing running r with
  | ret => exact h.proceed running r
  | fail e => exact h.proceed running r
  | processCreate env args next hnext =>
      exact h.syscall (h.processCreate env args)
        fun outcome => hnext outcome running
  | processStart env args entry next hentry hnext =>
      rw [UserCode.run, endState_bind (EStateM.run_get r)]
      refine h.syscall (h.processStart env args _ fun r' => ?_)
        fun outcome => hnext outcome running
      rw [startedEntry]
      cases startedProcess env args r with
      | some process => exact h.inScope (hentry (running.start process)) r'
      | none => exact h.refl r'
  | processExit retcode next hnext =>
      refine h.syscall (fun r => ?_) fun outcome => hnext outcome running
      rw [endState_sysProcessExit]
      exact h.refl r
  | unimplemented next hnext =>
      exact h.syscall (fun r => h.refl r) fun outcome => hnext outcome running
  | await continuation =>
      exact h.trans _ _ _ (h.proceed running r) (h.pending _ _)

theorem resume (h : Throughout P) (process : ProcessContext)
    (continuation : UserCode) (r : KernelState) :
    P r (endState (continuation.resume process) r) := by
  rw [UserCode.resume, endState_bind (EStateM.run_modify _ r)]
  exact h.trans _ _ _ (h.observed r (.resumed process) .resumed nofun)
    (h.run continuation _ _)

theorem exec (h : Throughout P) (r : KernelState) (turns : List KernelTurn) :
    P r (kernelMachine.exec r turns) := by
  have hpreserved : kernelMachine.Preserves fun _ => True :=
    fun _ _ _ => trivial
  refine hpreserved.exec_rel h.refl h.trans ?_ trivial turns
  intro r turn _
  cases turn with
  | userboot initial =>
      exact h.userboot _ (h.inScope (h.run initial (.boot r.userboot))) r
  | resume i =>
      change P r (kernelTurn r (.resume i))
      rw [kernelTurn]
      split
      next => exact h.refl r
      next process continuation _ =>
        exact h.trans _ _ _ (h.pending r _) (h.resume process continuation _)

end Throughout
end Fiber.Kernel
