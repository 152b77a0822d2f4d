import Fiber.Kernel.Job.Creation

/-!
# `sys_process_create`

The syscall checks its options and the policy of the running process, looks the
job handle up, creates the process, and makes a handle for the process and one
for its address region.  The steps whose bodies are placeholders, and the text
decoder, are parameters.

Three things in the source are easy to misread and are kept here.  The lookup
of the second attempt binds a new `job` in an inner block, so the creation uses
the job of the first attempt.  The decoded name is cut at the front and never
used.  When the process handle cannot be made, the result is OK.
-/

namespace Fiber.Kernel

open Job (perform)

/-- A view of a buffer. -/
structure Uint8Array where
  buffer : List UInt8
  byteOffset : ℕ
  length : ℕ

/-- What a handle is made for. -/
inductive KernelHandle
  | process (dispatcher : ProcessDispatcher)
  | vmar (dispatcher : ℕ)
  deriving DecidableEq

/-- The placeholder steps of a syscall, and the text decoder. -/
structure Environment where
  enforceBasicPolicy : ProcessDispatcher → FxPolicy → Status
  getDispatcherWithRights :
    ProcessDispatcher → FxHandle → FxRights → Status × ℕ
  makeUserspaceHandle : ℕ → KernelHandle → FxRights → Status
  decode : List UInt8 → String

/-- Placeholders that return OK, as in the source, around some lookup. -/
def Environment.ofLookup
    (lookup : ProcessDispatcher → FxHandle → FxRights → Status × ℕ) :
    Environment where
  enforceBasicPolicy := fun _ _ => .ok
  getDispatcherWithRights := lookup
  makeUserspaceHandle := fun _ _ _ => .ok
  decode := fun _ => ""

/-- The arguments of `sys_process_create`; out references are numbers. -/
structure ProcessCreateArgs where
  jobHandle : FxHandle
  name : Uint8Array
  nameLen : ℕ
  options : ℕ
  procHandleOut : ℕ
  vmarHandleOut : ℕ

/-- Go on with a value, or throw. -/
def orThrow {α : Type} : Except JsError α → KernelCode α
  | .ok a => pure a
  | .error e => throw e

@[simp] theorem orThrow_ok {α : Type} (a : α) :
    orThrow (.ok a) = pure a := rfl

@[simp] theorem orThrow_error_run {α : Type} (e : JsError) (o : Objects) :
    (orThrow (.error e) : KernelCode α).run o = .error e o := rfl

def sysProcessCreate (env : Environment) (tlScopes : List ProcessContext)
    (args : ProcessCreateArgs) : KernelCode Status := do
  if args.options ≠ fxProcessShared ∧ args.options ≠ 0 then
    return .errInvalidArgs
  let up ← orThrow (ProcessDispatcher.getCurrent tlScopes)
  let mut result := env.enforceBasicPolicy up fxPolNewProcess
  if result ≠ .ok then
    return result
  let str := env.decode args.name.buffer
  let _str := String.ofList (str.toList.drop fxMaxNameLen)
  if result ≠ .ok then
    return result
  let (status, job) :=
    env.getDispatcherWithRights up args.jobHandle fxRightManageProcess
  if status ≠ .ok then
    let (status2, _job) :=
      env.getDispatcherWithRights up args.jobHandle fxRightWrite
    if status2 ≠ .ok then
      return status2
  let res ← ProcessDispatcher.create job "TODO sp here" args.options
  if res.isErr then
    return ← orThrow res.unwrapErr
  let (newProcessHandle, procRights, newVmarHandle, vmarRights) ←
    orThrow res.unwrap
  result := env.makeUserspaceHandle args.procHandleOut
    (.process newProcessHandle) procRights
  if result = .ok then
    result := env.makeUserspaceHandle args.vmarHandleOut
      (.vmar newVmarHandle) vmarRights
    return result
  return .ok

/-! ## Everything the syscall can do -/

/-- The options are valid. -/
def ProcessCreateArgs.ValidOptions (args : ProcessCreateArgs) : Prop :=
  args.options = fxProcessShared ∨ args.options = 0

instance (args : ProcessCreateArgs) : Decidable args.ValidOptions :=
  inferInstanceAs (Decidable (_ ∨ _))

namespace Environment

/-- The lookup with the right to manage processes. -/
def manageLookup (env : Environment) (up : ProcessDispatcher)
    (args : ProcessCreateArgs) : Status × ℕ :=
  env.getDispatcherWithRights up args.jobHandle fxRightManageProcess

/-- The lookup with the right to write. -/
def writeLookup (env : Environment) (up : ProcessDispatcher)
    (args : ProcessCreateArgs) : Status × ℕ :=
  env.getDispatcherWithRights up args.jobHandle fxRightWrite

end Environment

/-- The caller passes the checks before the first lookup. -/
structure Admitted (env : Environment) (tlScopes : List ProcessContext)
    (args : ProcessCreateArgs) (up : ProcessDispatcher) : Prop where
  options : args.ValidOptions
  current : ProcessDispatcher.getCurrent tlScopes = .ok up
  policy : env.enforceBasicPolicy up fxPolNewProcess = .ok

/-- One of the lookups succeeds. -/
def LookupSucceeds (env : Environment) (up : ProcessDispatcher)
    (args : ProcessCreateArgs) : Prop :=
  (env.manageLookup up args).1 = .ok ∨ (env.writeLookup up args).1 = .ok

/-- The status of making the handle for the process. -/
def processHandleStatus (env : Environment) (args : ProcessCreateArgs)
    (o : Objects) : Status :=
  env.makeUserspaceHandle args.procHandleOut
    (.process (o.processNamed "TODO sp here")) fxRightNone

/-- The status of making the handle for the address region. -/
def vmarHandleStatus (env : Environment) (args : ProcessCreateArgs)
    (o : Objects) : Status :=
  env.makeUserspaceHandle args.vmarHandleOut (.vmar o.vmars) 0

/-- `Ending env tlScopes args o o' result`: the syscall can leave the objects
`o'` and end with `result`.  There is one case for each way it can end. -/
inductive Ending (env : Environment) (tlScopes : List ProcessContext)
    (args : ProcessCreateArgs) (o : Objects) :
    Objects → Except JsError Status → Prop
  | invalidOptions (hoptions : ¬ args.ValidOptions) :
      Ending env tlScopes args o o (.ok .errInvalidArgs)
  | noCurrent {e : JsError} (hoptions : args.ValidOptions)
      (hcurrent : ProcessDispatcher.getCurrent tlScopes = .error e) :
      Ending env tlScopes args o o (.error e)
  | policyDenied {up : ProcessDispatcher} (hoptions : args.ValidOptions)
      (hcurrent : ProcessDispatcher.getCurrent tlScopes = .ok up)
      (hpolicy : env.enforceBasicPolicy up fxPolNewProcess ≠ .ok) :
      Ending env tlScopes args o o
        (.ok (env.enforceBasicPolicy up fxPolNewProcess))
  | lookupsFail {up : ProcessDispatcher}
      (hadmitted : Admitted env tlScopes args up)
      (hlookup : ¬ LookupSucceeds env up args) :
      Ending env tlScopes args o o (.ok (env.writeLookup up args).1)
  | noJob {up : ProcessDispatcher} (hadmitted : Admitted env tlScopes args up)
      (hlookup : LookupSucceeds env up args)
      (hfree : ¬ o.jobs.Allocated (env.manageLookup up args).2) :
      Ending env tlScopes args o o.constructProcess (.error .typeError)
  | notReady {up : ProcessDispatcher}
      (hadmitted : Admitted env tlScopes args up)
      (hlookup : LookupSucceeds env up args)
      (hjob : o.jobs.Allocated (env.manageLookup up args).2)
      (hstate : (o.jobs.get (env.manageLookup up args).2).state ≠ .ready) :
      Ending env tlScopes args o o.constructProcess (.ok .errBadState)
  | noProcessHandle {up : ProcessDispatcher}
      (hadmitted : Admitted env tlScopes args up)
      (hlookup : LookupSucceeds env up args)
      (hjob : o.jobs.Allocated (env.manageLookup up args).2)
      (hstate : (o.jobs.get (env.manageLookup up args).2).state = .ready)
      (hhandle : processHandleStatus env args o ≠ .ok) :
      Ending env tlScopes args o
        (o.addProcess (env.manageLookup up args).2 "TODO sp here")
        (.ok .ok)
  | handles {up : ProcessDispatcher}
      (hadmitted : Admitted env tlScopes args up)
      (hlookup : LookupSucceeds env up args)
      (hjob : o.jobs.Allocated (env.manageLookup up args).2)
      (hstate : (o.jobs.get (env.manageLookup up args).2).state = .ready)
      (hhandle : processHandleStatus env args o = .ok) :
      Ending env tlScopes args o
        (o.addProcess (env.manageLookup up args).2 "TODO sp here")
        (.ok (vmarHandleStatus env args o))

/-- The options pass the check of the source. -/
theorem options_check {args : ProcessCreateArgs} (h : args.ValidOptions) :
    ¬ (args.options ≠ fxProcessShared ∧ args.options ≠ 0) :=
  fun hinvalid => h.elim hinvalid.1 hinvalid.2

/-- The syscall from the creation of the process on, under some job. -/
def createWithHandles (env : Environment) (args : ProcessCreateArgs)
    (job : ℕ) : KernelCode Status := do
  let res ← ProcessDispatcher.create job "TODO sp here" args.options
  if res.isErr then orThrow res.unwrapErr
  else do
    let created ← orThrow res.unwrap
    if env.makeUserspaceHandle args.procHandleOut (.process created.1)
        created.2.1 = .ok then
      pure (env.makeUserspaceHandle args.vmarHandleOut
        (.vmar created.2.2.1) created.2.2.2)
    else pure .ok

section

variable {env : Environment} {tlScopes : List ProcessContext}
  {args : ProcessCreateArgs} {up : ProcessDispatcher} {o : Objects} {job : ℕ}

theorem sysProcessCreate_of_invalid_options (h : ¬ args.ValidOptions) :
    (sysProcessCreate env tlScopes args).run o = .ok .errInvalidArgs o := by
  have hcheck : args.options ≠ fxProcessShared ∧ args.options ≠ 0 :=
    not_or.mp h
  simp [sysProcessCreate, hcheck]

theorem sysProcessCreate_of_no_current {e : JsError}
    (hoptions : args.ValidOptions)
    (hcurrent : ProcessDispatcher.getCurrent tlScopes = .error e) :
    (sysProcessCreate env tlScopes args).run o = .error e o := by
  simp [sysProcessCreate, options_check hoptions, hcurrent]

theorem sysProcessCreate_of_policy_ne (hoptions : args.ValidOptions)
    (hcurrent : ProcessDispatcher.getCurrent tlScopes = .ok up)
    (hpolicy : env.enforceBasicPolicy up fxPolNewProcess ≠ .ok) :
    (sysProcessCreate env tlScopes args).run o =
      .ok (env.enforceBasicPolicy up fxPolNewProcess) o := by
  simp [sysProcessCreate, options_check hoptions, hcurrent, hpolicy]

theorem sysProcessCreate_of_lookups_fail
    (hadmitted : Admitted env tlScopes args up)
    (hlookup : ¬ LookupSucceeds env up args) :
    (sysProcessCreate env tlScopes args).run o =
      .ok (env.writeLookup up args).1 o := by
  obtain ⟨hmanage, hwrite⟩ := not_or.mp hlookup
  unfold Environment.manageLookup Environment.writeLookup at *
  simp [sysProcessCreate, options_check hadmitted.options, hadmitted.current,
    hadmitted.policy, hmanage, hwrite]

theorem sysProcessCreate_eq (hadmitted : Admitted env tlScopes args up)
    (hlookup : LookupSucceeds env up args) :
    sysProcessCreate env tlScopes args =
      createWithHandles env args (env.manageLookup up args).2 := by
  have hoptions := options_check hadmitted.options
  unfold LookupSucceeds at hlookup
  unfold Environment.manageLookup Environment.writeLookup at *
  by_cases hmanage :
      (env.getDispatcherWithRights up args.jobHandle
        fxRightManageProcess).1 = .ok
  · simp [sysProcessCreate, createWithHandles, hoptions, hadmitted.current,
      hadmitted.policy, hmanage]
  · have hwrite := hlookup.resolve_left hmanage
    simp [sysProcessCreate, createWithHandles, hoptions, hadmitted.current,
      hadmitted.policy, hmanage, hwrite]

theorem createWithHandles_of_ready (hjob : o.jobs.Allocated job)
    (hstate : (o.jobs.get job).state = .ready) :
    (createWithHandles env args job).run o =
      .ok (if processHandleStatus env args o = .ok then
          vmarHandleStatus env args o else .ok)
        (o.addProcess job "TODO sp here") := by
  by_cases hhandle : processHandleStatus env args o = .ok
  · rw [if_pos hhandle]
    rw [processHandleStatus] at hhandle
    simp [createWithHandles, ProcessDispatcher.create_of_ready hjob hstate,
      hhandle, vmarHandleStatus]
  · rw [if_neg hhandle]
    rw [processHandleStatus] at hhandle
    simp [createWithHandles, ProcessDispatcher.create_of_ready hjob hstate,
      hhandle]

theorem createWithHandles_of_not_ready (hjob : o.jobs.Allocated job)
    (hstate : (o.jobs.get job).state ≠ .ready) :
    (createWithHandles env args job).run o =
      .ok .errBadState o.constructProcess := by
  simp [createWithHandles,
    ProcessDispatcher.create_of_not_ready hjob hstate]

theorem createWithHandles_of_not_allocated (hjob : ¬ o.jobs.Allocated job) :
    (createWithHandles env args job).run o =
      .error .typeError o.constructProcess := by
  simp [createWithHandles, ProcessDispatcher.create_of_not_allocated hjob]

theorem createWithHandles_ending (hadmitted : Admitted env tlScopes args up)
    (hlookup : LookupSucceeds env up args) :
    Ending env tlScopes args o
      (perform (createWithHandles env args (env.manageLookup up args).2) o).1
      (perform (createWithHandles env args
        (env.manageLookup up args).2) o).2 := by
  unfold perform
  by_cases hjob : o.jobs.Allocated (env.manageLookup up args).2
  · by_cases hstate :
        (o.jobs.get (env.manageLookup up args).2).state = .ready
    · rw [createWithHandles_of_ready hjob hstate]
      by_cases hhandle : processHandleStatus env args o = .ok
      · rw [if_pos hhandle]
        exact .handles hadmitted hlookup hjob hstate hhandle
      · rw [if_neg hhandle]
        exact .noProcessHandle hadmitted hlookup hjob hstate hhandle
    · rw [createWithHandles_of_not_ready hjob hstate]
      exact .notReady hadmitted hlookup hjob hstate
  · rw [createWithHandles_of_not_allocated hjob]
    exact .noJob hadmitted hlookup hjob

end

theorem sysProcessCreate_ending (env : Environment)
    (tlScopes : List ProcessContext) (args : ProcessCreateArgs)
    (o : Objects) :
    Ending env tlScopes args o
      (perform (sysProcessCreate env tlScopes args) o).1
      (perform (sysProcessCreate env tlScopes args) o).2 := by
  unfold perform
  by_cases hoptions : args.ValidOptions
  · cases hcurrent : ProcessDispatcher.getCurrent tlScopes with
    | error e =>
        rw [sysProcessCreate_of_no_current hoptions hcurrent]
        exact .noCurrent hoptions hcurrent
    | ok up =>
        by_cases hpolicy : env.enforceBasicPolicy up fxPolNewProcess = .ok
        · have hadmitted : Admitted env tlScopes args up :=
            ⟨hoptions, hcurrent, hpolicy⟩
          by_cases hlookup : LookupSucceeds env up args
          · rw [sysProcessCreate_eq hadmitted hlookup]
            exact createWithHandles_ending hadmitted hlookup
          · rw [sysProcessCreate_of_lookups_fail hadmitted hlookup]
            exact .lookupsFail hadmitted hlookup
        · rw [sysProcessCreate_of_policy_ne hoptions hcurrent hpolicy]
          exact .policyDenied hoptions hcurrent hpolicy
  · rw [sysProcessCreate_of_invalid_options hoptions]
    exact .invalidOptions hoptions

end Fiber.Kernel
