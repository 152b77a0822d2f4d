import Fiber.Kernel.Process.HandleTable
import Fiber.Kernel.Process.Scope

/-!
# `sys_process_start`

The syscall takes its argument handle out of the table of the caller, puts it
into the table of the new process, and starts a thread; then the embedder runs
in the scope of the process.  The lookups, the thread and the choice of a value
are parameters, as are the names that the source uses without declaring them.

`Status.ERR_ACCESS_DENIED` is not in the enumeration, so the exit for a handle
without the right to be transferred returns `undefined`, read here as `none`.

The rest is read as it is meant.  A process has no method `get`, and
`process.get()` stands for the process itself.  `FX_HANDLE_INVALID` is declared
nowhere and stands for `FX_INVALID_HANDLE`.  Two lines of `fiber.ts` do not
parse: 176, whose trace has an argument missing and is left out, and 211, whose
`ThreadDispatcher.EntryState{..}` stands for the record of these fields.
-/

namespace Fiber.Kernel

open Fiber.Support

/-- `ThreadDispatcher.EntryState`. -/
structure EntryState where
  pc : ℕ
  sp : ℕ
  argNhv : FxHandle
  arg2 : ℕ
  deriving DecidableEq, Repr

/-- The handle tables, what threads were started with so far, and the state of
the embedder. -/
structure Custody (ρ : Type) where
  tables : HandleTables
  starts : List EntryState
  rest : ρ

/-- What the syscall relies on.  The two lookups are those of
`getDispatcherWithRights` at its two types. -/
structure StartEnvironment (ρ : Type) where
  getProcessWithRights : HandleTable → ProcessDispatcher → FxHandle →
    FxRights → FxStatus × ProcessDispatcher
  getThreadWithRights : HandleTable → ProcessDispatcher → FxHandle →
    FxRights → FxStatus × ℕ
  threadProcess : ℕ → ℕ
  threadStart : ℕ → EntryState → Bool → FxStatus
  mapHandleToValue : (table : HandleTable) → HandleOwner → table.Fresh
  zxErrAccessDenied : FxStatus
  zxErrAccessDenied_ne : zxErrAccessDenied ≠ Status.ok.number
  onProcessStart : ℕ → FxHandle → Js (Custody ρ) Unit

/-- The arguments of `sys_process_start`, and the names it does not declare. -/
structure ProcessStartArgs where
  processHandle : FxHandle
  pc : ℕ
  arg1HandleValue : FxHandle
  threadHandle : FxHandle
  sp : ℕ
  arg2 : ℕ

variable {ρ : Type}

/-- `ProcessDispatcher.getCurrent()`. -/
def currentProcess : Js (Custody ρ) ProcessDispatcher := do
  let r ← get
  match ProcessDispatcher.getCurrent r.tlScopes with
  | .ok process => pure process
  | .error e => throw e

/-- `process.handleTable()`. -/
def handleTable (process : ProcessDispatcher) :
    Js (Custody ρ) HandleTable := do
  let r ← get
  pure (r.rest.tables process.ref)

/-- `process.handleTable().removeHandle(process, value)`. -/
def removeHandle (process : ProcessDispatcher) (value : FxHandle) :
    Js (Custody ρ) (Option HandleOwner) :=
  modifyGet fun r =>
    let tables := r.rest.tables.removeHandle process.ref value
    (r.rest.tables.slots (process.ref, value),
      { r with rest := { r.rest with tables := tables } })

/-- `process.handleTable().mapHandleToValue(handle)`, and then
`process.handleTable().addHandle(handle)`. -/
def mapAndAddHandle (env : StartEnvironment ρ) (process : ProcessDispatcher)
    (handle : HandleOwner) : Js (Custody ρ) FxHandle :=
  modifyGet fun r =>
    let fresh := env.mapHandleToValue (r.rest.tables process.ref) handle
    let tables := r.rest.tables.addHandle process.ref fresh handle
    (fresh.value, { r with rest := { r.rest with tables := tables } })

/-- `thread.start(entry, true)`. -/
def startThread (env : StartEnvironment ρ) (thread : ℕ) (entry : EntryState) :
    Js (Custody ρ) FxStatus :=
  modifyGet fun r =>
    (env.threadStart thread entry true,
      { r with rest := { r.rest with starts := r.rest.starts ++ [entry] } })

def sysProcessStart (env : StartEnvironment ρ) (args : ProcessStartArgs) :
    Js (Custody ρ) (Option FxStatus) := do
  let up ← currentProcess
  let (status1, process) := env.getProcessWithRights (← handleTable up) up
    args.processHandle fxRightWrite
  if status1 ≠ Status.ok.number then
    let _ ← removeHandle up args.arg1HandleValue
    return some status1
  let (status2, thread) := env.getThreadWithRights (← handleTable up) up
    args.threadHandle fxRightWrite
  if status2 ≠ Status.ok.number then
    let _ ← removeHandle up args.arg1HandleValue
    return some status2
  let argHandle ← removeHandle up args.arg1HandleValue
  if env.threadProcess thread ≠ process.ref then
    return some env.zxErrAccessDenied
  let mut argNhv := fxInvalidHandle
  if let some handle := argHandle then
    if ¬ handle.hasRights fxRightTransfer then
      return none
    argNhv ← mapAndAddHandle env process handle
  let status3 ← startThread env thread
    { pc := args.pc, sp := args.sp, argNhv := argNhv, arg2 := args.arg2 }
  if status3 ≠ Status.ok.number then
    let _ ← removeHandle process argNhv
    return some status3
  scope ⟨process⟩ (env.onProcessStart args.pc 0)
  return some Status.ok.number

/-! ## Everything the syscall can do -/

/-- What the lookup of the process gives. -/
def StartEnvironment.processLookup (env : StartEnvironment ρ)
    (args : ProcessStartArgs) (r : Realm (Custody ρ)) (up : ProcessDispatcher) :
    FxStatus × ProcessDispatcher :=
  env.getProcessWithRights (r.rest.tables up.ref) up args.processHandle
    fxRightWrite

/-- What the lookup of the thread gives. -/
def StartEnvironment.threadLookup (env : StartEnvironment ρ)
    (args : ProcessStartArgs) (r : Realm (Custody ρ)) (up : ProcessDispatcher) :
    FxStatus × ℕ :=
  env.getThreadWithRights (r.rest.tables up.ref) up args.threadHandle
    fxRightWrite

/-- The handle that the caller passes, if there is one. -/
def Realm.argument (r : Realm (Custody ρ)) (up : ProcessDispatcher)
    (args : ProcessStartArgs) : Option HandleOwner :=
  r.rest.tables.slots (up.ref, args.arg1HandleValue)

def Realm.remove (r : Realm (Custody ρ)) (process : ProcessDispatcher)
    (value : FxHandle) : Realm (Custody ρ) :=
  { r with rest := { r.rest with
    tables := r.rest.tables.removeHandle process.ref value } }

/-- The argument handle is taken from the caller. -/
def Realm.taking (r : Realm (Custody ρ)) (up : ProcessDispatcher)
    (args : ProcessStartArgs) : Realm (Custody ρ) :=
  r.remove up args.arg1HandleValue

/-- The process gets the argument handle, if there is one, under some value. -/
def Realm.deliver (r : Realm (Custody ρ)) (env : StartEnvironment ρ)
    (process : ProcessDispatcher) :
    Option HandleOwner → FxHandle × Realm (Custody ρ)
  | none => (fxInvalidHandle, r)
  | some handle =>
      let fresh := env.mapHandleToValue (r.rest.tables process.ref) handle
      (fresh.value, { r with rest := { r.rest with
        tables := r.rest.tables.addHandle process.ref fresh handle } })

/-- A thread is started. -/
def Realm.starting (r : Realm (Custody ρ)) (entry : EntryState) :
    Realm (Custody ρ) :=
  { r with rest := { r.rest with starts := r.rest.starts ++ [entry] } }

def ProcessStartArgs.entry (args : ProcessStartArgs) (argNhv : FxHandle) :
    EntryState :=
  { pc := args.pc, sp := args.sp, argNhv := argNhv, arg2 := args.arg2 }

/-- The end of the syscall, in which the embedder runs the process. -/
def runProcess (env : StartEnvironment ρ) (args : ProcessStartArgs)
    (process : ProcessDispatcher) : Js (Custody ρ) (Option FxStatus) := do
  scope ⟨process⟩ (env.onProcessStart args.pc 0)
  pure (some Status.ok.number)

/-- Both lookups succeed. -/
structure Found (env : StartEnvironment ρ) (args : ProcessStartArgs)
    (r : Realm (Custody ρ)) (up process : ProcessDispatcher) (thread : ℕ) :
    Prop where
  current : ProcessDispatcher.getCurrent r.tlScopes = .ok up
  processFound : env.processLookup args r up = (Status.ok.number, process)
  threadFound : env.threadLookup args r up = (Status.ok.number, thread)

/-- The argument is absent or may be transferred. -/
def MayTransfer (argument : Option HandleOwner) : Prop :=
  ∀ handle, argument = some handle → handle.hasRights fxRightTransfer = true

/-- How the syscall can end.  In the last case the embedder runs, in the scope
of the process. -/
inductive StartEnding (env : StartEnvironment ρ) (args : ProcessStartArgs)
    (r : Realm (Custody ρ)) :
    EStateM.Result JsError (Realm (Custody ρ)) (Option FxStatus) → Prop
  | noCurrent {e : JsError}
      (hcurrent : ProcessDispatcher.getCurrent r.tlScopes = .error e) :
      StartEnding env args r (.error e r)
  | noProcess {up process : ProcessDispatcher} {status : FxStatus}
      (hcurrent : ProcessDispatcher.getCurrent r.tlScopes = .ok up)
      (hprocess : env.processLookup args r up = (status, process))
      (hstatus : status ≠ Status.ok.number) :
      StartEnding env args r (.ok (some status) (r.taking up args))
  | noThread {up process : ProcessDispatcher} {thread : ℕ} {status : FxStatus}
      (hcurrent : ProcessDispatcher.getCurrent r.tlScopes = .ok up)
      (hprocess : env.processLookup args r up = (Status.ok.number, process))
      (hthread : env.threadLookup args r up = (status, thread))
      (hstatus : status ≠ Status.ok.number) :
      StartEnding env args r (.ok (some status) (r.taking up args))
  | foreignThread {up process : ProcessDispatcher} {thread : ℕ}
      (hfound : Found env args r up process thread)
      (hforeign : env.threadProcess thread ≠ process.ref) :
      StartEnding env args r
        (.ok (some env.zxErrAccessDenied) (r.taking up args))
  | noTransfer {up process : ProcessDispatcher} {thread : ℕ}
      (hfound : Found env args r up process thread)
      (hown : env.threadProcess thread = process.ref)
      (hargument : ¬ MayTransfer (r.argument up args)) :
      StartEnding env args r (.ok none (r.taking up args))
  | notStarted {up process : ProcessDispatcher} {thread : ℕ}
      {argNhv : FxHandle} {r' : Realm (Custody ρ)}
      (hfound : Found env args r up process thread)
      (hown : env.threadProcess thread = process.ref)
      (hargument : MayTransfer (r.argument up args))
      (hdeliver : (r.taking up args).deliver env process (r.argument up args) =
        (argNhv, r'))
      (hstatus : env.threadStart thread (args.entry argNhv) true ≠
        Status.ok.number) :
      StartEnding env args r
        (.ok (some (env.threadStart thread (args.entry argNhv) true))
          ((r'.starting (args.entry argNhv)).remove process argNhv))
  | started {up process : ProcessDispatcher} {thread : ℕ} {argNhv : FxHandle}
      {r' : Realm (Custody ρ)} (hfound : Found env args r up process thread)
      (hown : env.threadProcess thread = process.ref)
      (hargument : MayTransfer (r.argument up args))
      (hdeliver : (r.taking up args).deliver env process (r.argument up args) =
        (argNhv, r'))
      (hstatus : env.threadStart thread (args.entry argNhv) true =
        Status.ok.number) :
      StartEnding env args r
        ((runProcess env args process).run (r'.starting (args.entry argNhv)))

section

variable {env : StartEnvironment ρ} {args : ProcessStartArgs}
  {r : Realm (Custody ρ)} {up process : ProcessDispatcher} {thread : ℕ}

theorem currentProcess_of_ok
    (h : ProcessDispatcher.getCurrent r.tlScopes = .ok up) :
    (currentProcess : Js (Custody ρ) ProcessDispatcher).run r = .ok up r := by
  simp [currentProcess, h]

theorem currentProcess_of_error {e : JsError}
    (h : ProcessDispatcher.getCurrent r.tlScopes = .error e) :
    (currentProcess : Js (Custody ρ) ProcessDispatcher).run r =
      .error e r := by
  simp only [currentProcess, EStateM.run_bind, EStateM.run_get, h]
  rfl

@[simp] theorem run_handleTable :
    (handleTable process : Js (Custody ρ) HandleTable).run r =
      .ok (r.rest.tables process.ref) r := rfl

@[simp] theorem run_removeHandle {value : FxHandle} :
    (removeHandle process value : Js (Custody ρ) (Option HandleOwner)).run r =
      .ok (r.rest.tables.slots (process.ref, value))
        (r.remove process value) := rfl

@[simp] theorem run_mapAndAddHandle {handle : HandleOwner} :
    (mapAndAddHandle env process handle).run r =
      .ok (r.deliver env process (some handle)).1
        (r.deliver env process (some handle)).2 := rfl

@[simp] theorem run_startThread {entry : EntryState} :
    (startThread env thread entry).run r =
      .ok (env.threadStart thread entry true) (r.starting entry) := rfl

/-- The syscall from the check of the thread on. -/
def launch (env : StartEnvironment ρ) (args : ProcessStartArgs)
    (process : ProcessDispatcher) (thread : ℕ)
    (argument : Option HandleOwner) : Js (Custody ρ) (Option FxStatus) := do
  if env.threadProcess thread ≠ process.ref then
    return some env.zxErrAccessDenied
  let mut argNhv := fxInvalidHandle
  if let some handle := argument then
    if ¬ handle.hasRights fxRightTransfer then
      return none
    argNhv ← mapAndAddHandle env process handle
  let status3 ← startThread env thread (args.entry argNhv)
  if status3 ≠ Status.ok.number then
    let _ ← removeHandle process argNhv
    return some status3
  runProcess env args process

theorem sysProcessStart_of_no_current {e : JsError}
    (hcurrent : ProcessDispatcher.getCurrent r.tlScopes = .error e) :
    (sysProcessStart env args).run r = .error e r := by
  rw [sysProcessStart, EStateM.run_bind, currentProcess_of_error hcurrent]

theorem sysProcessStart_of_no_process {status : FxStatus}
    (hcurrent : ProcessDispatcher.getCurrent r.tlScopes = .ok up)
    (hprocess : env.processLookup args r up = (status, process))
    (hstatus : status ≠ Status.ok.number) :
    (sysProcessStart env args).run r =
      .ok (some status) (r.taking up args) := by
  rw [StartEnvironment.processLookup] at hprocess
  simp only [sysProcessStart, EStateM.run_bind, currentProcess_of_ok hcurrent,
    run_handleTable, hprocess, ne_eq, hstatus, not_false_eq_true, if_true,
    run_removeHandle, EStateM.run_pure, Realm.taking]

theorem sysProcessStart_of_no_thread {status : FxStatus}
    (hcurrent : ProcessDispatcher.getCurrent r.tlScopes = .ok up)
    (hprocess : env.processLookup args r up = (Status.ok.number, process))
    (hthread : env.threadLookup args r up = (status, thread))
    (hstatus : status ≠ Status.ok.number) :
    (sysProcessStart env args).run r =
      .ok (some status) (r.taking up args) := by
  rw [StartEnvironment.processLookup] at hprocess
  rw [StartEnvironment.threadLookup] at hthread
  simp only [sysProcessStart, EStateM.run_bind, currentProcess_of_ok hcurrent,
    run_handleTable, hprocess, hthread, ne_eq, hstatus, not_true_eq_false,
    not_false_eq_true, if_false, if_true, run_removeHandle, EStateM.run_pure,
    Realm.taking]

theorem sysProcessStart_of_found
    (hfound : Found env args r up process thread) :
    (sysProcessStart env args).run r =
      (launch env args process thread (r.argument up args)).run
        (r.taking up args) := by
  have hprocess := hfound.processFound
  have hthread := hfound.threadFound
  rw [StartEnvironment.processLookup] at hprocess
  rw [StartEnvironment.threadLookup] at hthread
  simp only [sysProcessStart, EStateM.run_bind,
    currentProcess_of_ok hfound.current, run_handleTable, hprocess, hthread,
    ne_eq, not_true_eq_false, if_false, run_removeHandle]
  rfl

theorem launch_of_foreign {argument : Option HandleOwner}
    (h : env.threadProcess thread ≠ process.ref) :
    (launch env args process thread argument).run r =
      .ok (some env.zxErrAccessDenied) r := by
  simp only [launch, if_pos h, EStateM.run_pure]

theorem launch_of_no_transfer {argument : Option HandleOwner}
    (hown : env.threadProcess thread = process.ref)
    (hargument : ¬ MayTransfer argument) :
    (launch env args process thread argument).run r = .ok none r := by
  rcases argument with _ | handle
  · exact absurd nofun hargument
  · have hrights : ¬ handle.hasRights fxRightTransfer = true := by
      intro hrights
      apply hargument
      rintro _ ⟨⟩
      exact hrights
    simp only [launch, hown, ne_eq, not_true_eq_false, if_false, hrights,
      Bool.false_eq_true, not_false_eq_true, if_true, EStateM.run_pure]

theorem launch_of_may_transfer {argument : Option HandleOwner}
    {argNhv : FxHandle} {r' : Realm (Custody ρ)}
    (hown : env.threadProcess thread = process.ref)
    (hargument : MayTransfer argument)
    (hdeliver : r.deliver env process argument = (argNhv, r')) :
    (launch env args process thread argument).run r =
      if env.threadStart thread (args.entry argNhv) true ≠
          Status.ok.number then
        .ok (some (env.threadStart thread (args.entry argNhv) true))
          ((r'.starting (args.entry argNhv)).remove process argNhv)
      else (runProcess env args process).run
        (r'.starting (args.entry argNhv)) := by
  have hfinish : ∀ {status : FxStatus} {argNhv : FxHandle}
      {r' : Realm (Custody ρ)},
      (if status ≠ Status.ok.number then do
        let _ ← removeHandle process argNhv
        pure (some status)
      else runProcess env args process : Js (Custody ρ) (Option FxStatus)).run
        r' =
      if status ≠ Status.ok.number then
        .ok (some status) (r'.remove process argNhv)
      else (runProcess env args process).run r' := by
    intro status argNhv r'
    by_cases h : status ≠ Status.ok.number
    · rw [if_pos h, if_pos h]
      rfl
    · rw [if_neg h, if_neg h]
  rcases argument with _ | handle
  · obtain ⟨rfl, rfl⟩ := Prod.mk.inj hdeliver
    simp only [launch, hown, ne_eq, not_true_eq_false, if_false,
      EStateM.run_bind, run_startThread]
    exact hfinish
  · have hrights : handle.hasRights fxRightTransfer = true :=
      hargument handle rfl
    simp only [launch, hown, ne_eq, not_true_eq_false, if_false, hrights,
      EStateM.run_bind, run_mapAndAddHandle, hdeliver, run_startThread]
    exact hfinish

end

theorem sysProcessStart_ending (env : StartEnvironment ρ)
    (args : ProcessStartArgs) (r : Realm (Custody ρ)) :
    StartEnding env args r ((sysProcessStart env args).run r) := by
  rcases hcurrent : ProcessDispatcher.getCurrent r.tlScopes with e | up
  · rw [sysProcessStart_of_no_current hcurrent]
    exact .noCurrent hcurrent
  rcases hprocess : env.processLookup args r up with ⟨status1, process⟩
  by_cases hstatus1 : status1 = Status.ok.number
  case neg =>
    rw [sysProcessStart_of_no_process hcurrent hprocess hstatus1]
    exact .noProcess hcurrent hprocess hstatus1
  subst status1
  rcases hthread : env.threadLookup args r up with ⟨status2, thread⟩
  by_cases hstatus2 : status2 = Status.ok.number
  case neg =>
    rw [sysProcessStart_of_no_thread hcurrent hprocess hthread hstatus2]
    exact .noThread hcurrent hprocess hthread hstatus2
  subst status2
  have hfound : Found env args r up process thread :=
    ⟨hcurrent, hprocess, hthread⟩
  rw [sysProcessStart_of_found hfound]
  by_cases hown : env.threadProcess thread = process.ref
  case neg =>
    rw [launch_of_foreign hown]
    exact .foreignThread hfound hown
  by_cases hargument : MayTransfer (r.argument up args)
  case neg =>
    rw [launch_of_no_transfer hown hargument]
    exact .noTransfer hfound hown hargument
  rcases hdeliver : (r.taking up args).deliver env process
    (r.argument up args) with ⟨argNhv, r'⟩
  rw [launch_of_may_transfer hown hargument hdeliver]
  split
  · next hstatus =>
      exact .notStarted hfound hown hargument hdeliver hstatus
  · next hstatus =>
      exact .started hfound hown hargument hdeliver (not_not.mp hstatus)

end Fiber.Kernel
