import Fiber.Kernel.Syscall.Registration

/-!
# What `sys_process_create` reports, and what it leaves behind

A faithful result is OK exactly if every step succeeded, and else the status of
the step that failed, with no process registered.  The steps before the
registration are faithful.  A handle that cannot be made afterwards leaves the
process registered, and if it is the first one its status is not returned.

Here a lookup or a creation succeeds or fails as the source performs it; which
job the creation should have been given is another question.
-/

namespace Fiber.Kernel

open Fiber.Support Job

variable (env : Environment) (tlScopes : List ProcessContext)
  (args : ProcessCreateArgs) (o : Objects)

/-- The creation that the syscall makes. -/
def createStep (up : ProcessDispatcher) :
    KernelCode
      (Result (ProcessDispatcher × FxRights × ℕ × FxRights) Status) :=
  ProcessDispatcher.create (env.manageLookup up args).2 "TODO sp here"
    args.options

/-- The checks, a lookup, the creation and both handles succeed. -/
def AllStepsSucceed : Prop :=
  ∃ up process procRights vmar vmarRights o',
    Admitted env tlScopes args up ∧ LookupSucceeds env up args ∧
    (createStep env args up).run o =
      .ok (Result.Ok (process, procRights, vmar, vmarRights)) o' ∧
    env.makeUserspaceHandle args.procHandleOut (.process process)
      procRights = .ok ∧
    env.makeUserspaceHandle args.vmarHandleOut (.vmar vmar) vmarRights = .ok

/-- The first step that fails has this status. -/
inductive FailedWith : Status → Prop
  | options (hoptions : ¬ args.ValidOptions) : FailedWith .errInvalidArgs
  | policy {up : ProcessDispatcher} (hoptions : args.ValidOptions)
      (hcurrent : ProcessDispatcher.getCurrent tlScopes = .ok up)
      (hpolicy : env.enforceBasicPolicy up fxPolNewProcess ≠ .ok) :
      FailedWith (env.enforceBasicPolicy up fxPolNewProcess)
  | lookups {up : ProcessDispatcher}
      (hadmitted : Admitted env tlScopes args up)
      (hlookup : ¬ LookupSucceeds env up args) :
      FailedWith (env.writeLookup up args).1
  | create {up : ProcessDispatcher} {status : Status} {o' : Objects}
      (hadmitted : Admitted env tlScopes args up)
      (hlookup : LookupSucceeds env up args)
      (hcreate : (createStep env args up).run o =
        .ok (Result.Err status) o') : FailedWith status
  | processHandle {up process : ProcessDispatcher}
      {procRights vmarRights : FxRights} {vmar : ℕ} {o' : Objects}
      (hadmitted : Admitted env tlScopes args up)
      (hlookup : LookupSucceeds env up args)
      (hcreate : (createStep env args up).run o =
        .ok (Result.Ok (process, procRights, vmar, vmarRights)) o')
      (hhandle : env.makeUserspaceHandle args.procHandleOut
        (.process process) procRights ≠ .ok) :
      FailedWith (env.makeUserspaceHandle args.procHandleOut
        (.process process) procRights)
  | vmarHandle {up process : ProcessDispatcher}
      {procRights vmarRights : FxRights} {vmar : ℕ} {o' : Objects}
      (hadmitted : Admitted env tlScopes args up)
      (hlookup : LookupSucceeds env up args)
      (hcreate : (createStep env args up).run o =
        .ok (Result.Ok (process, procRights, vmar, vmarRights)) o')
      (hhandle : env.makeUserspaceHandle args.procHandleOut
        (.process process) procRights = .ok)
      (hvmar : env.makeUserspaceHandle args.vmarHandleOut (.vmar vmar)
        vmarRights ≠ .ok) :
      FailedWith (env.makeUserspaceHandle args.vmarHandleOut (.vmar vmar)
        vmarRights)

/-- Ending in `o'` with `result` is faithful: the result is OK exactly if every
step succeeded, and otherwise it is the status of the step that failed and
every job lists the processes it listed before. -/
structure ReportsFaithfully (o' : Objects)
    (result : Except JsError Status) : Prop where
  ok_iff : result = .ok .ok ↔ AllStepsSucceed env tlScopes args o
  otherwise : ¬ AllStepsSucceed env tlScopes args o →
    ∃ status, FailedWith env tlScopes args o status ∧
      result = .ok status ∧
      ∀ q, (o'.jobs.get q).procs = (o.jobs.get q).procs

/-- The options are invalid; or there is a current process, and the policy
denies it, or both lookups fail, or the first lookup returned a job that is not
ready, or one that is ready and both handles can be made. -/
def FaithfulWhen : Prop :=
  ¬ args.ValidOptions ∨
    ∃ up, ProcessDispatcher.getCurrent tlScopes = .ok up ∧
      (env.enforceBasicPolicy up fxPolNewProcess ≠ .ok ∨
        ¬ LookupSucceeds env up args ∨
        o.jobs.Allocated (env.manageLookup up args).2 ∧
          ((o.jobs.get (env.manageLookup up args).2).state ≠ .ready ∨
            processHandleStatus env args o = .ok ∧
              vmarHandleStatus env args o = .ok))

variable {env tlScopes args o} {o' : Objects} {up : ProcessDispatcher}
  {result : Except JsError Status}

/-- A step failed with the status returned, and no process was registered. -/
theorem ReportsFaithfully.of_failed {status : Status}
    (hfailed : FailedWith env tlScopes args o status) (hne : status ≠ .ok)
    (hnot : ¬ AllStepsSucceed env tlScopes args o)
    (hprocs : ∀ q, (o'.jobs.get q).procs = (o.jobs.get q).procs) :
    ReportsFaithfully env tlScopes args o o' (.ok status) where
  ok_iff := iff_of_false (fun h => hne (Except.ok.inj h)) hnot
  otherwise := fun _ => ⟨status, hfailed, rfl, hprocs⟩

/-- Throwing is never faithful. -/
theorem not_reportsFaithfully_error {e : JsError} :
    ¬ ReportsFaithfully env tlScopes args o o' (.error e) := by
  intro h
  by_cases hall : AllStepsSucceed env tlScopes args o
  · cases h.ok_iff.mpr hall
  · obtain ⟨status, -, hresult, -⟩ := h.otherwise hall
    cases hresult

/-- After a successful lookup, the job decides about the creation, and the
handles about the rest. -/
theorem allStepsSucceed_iff (hadmitted : Admitted env tlScopes args up)
    (hlookup : LookupSucceeds env up args) :
    AllStepsSucceed env tlScopes args o ↔
      o.jobs.Allocated (env.manageLookup up args).2 ∧
      (o.jobs.get (env.manageLookup up args).2).state = .ready ∧
      processHandleStatus env args o = .ok ∧
      vmarHandleStatus env args o = .ok := by
  constructor
  · rintro ⟨up', process, procRights, vmar, vmarRights, o', hadmitted', _,
      hcreate, hprocess, hvmar⟩
    obtain rfl : up' = up :=
      Except.ok.inj (hadmitted'.current.symm.trans hadmitted.current)
    by_cases hjob : o.jobs.Allocated (env.manageLookup up' args).2
    · by_cases hstate :
          (o.jobs.get (env.manageLookup up' args).2).state = .ready
      · rw [createStep, ProcessDispatcher.create_of_ready hjob hstate]
          at hcreate
        cases hcreate
        exact ⟨hjob, hstate, hprocess, hvmar⟩
      · rw [createStep, ProcessDispatcher.create_of_not_ready hjob hstate]
          at hcreate
        cases hcreate
    · rw [createStep, ProcessDispatcher.create_of_not_allocated hjob]
        at hcreate
      cases hcreate
  · rintro ⟨hjob, hstate, hprocess, hvmar⟩
    exact ⟨up, _, _, _, _, _, hadmitted, hlookup,
      ProcessDispatcher.create_of_ready hjob hstate _ _, hprocess, hvmar⟩

theorem faithfulWhen_iff (hadmitted : Admitted env tlScopes args up)
    (hlookup : LookupSucceeds env up args) :
    FaithfulWhen env tlScopes args o ↔
      o.jobs.Allocated (env.manageLookup up args).2 ∧
        ((o.jobs.get (env.manageLookup up args).2).state ≠ .ready ∨
          processHandleStatus env args o = .ok ∧
            vmarHandleStatus env args o = .ok) := by
  constructor
  · rintro (hoptions | ⟨up', hcurrent, hcase⟩)
    · exact absurd hadmitted.options hoptions
    · obtain rfl : up' = up :=
        Except.ok.inj (hcurrent.symm.trans hadmitted.current)
      exact (hcase.resolve_left fun h => h hadmitted.policy).resolve_left
        fun h => h hlookup
  · intro h
    exact Or.inr ⟨up, hadmitted.current, Or.inr (Or.inr h)⟩

theorem Ending.reportsFaithfully_iff
    (h : Ending env tlScopes args o o' result) :
    ReportsFaithfully env tlScopes args o o' result ↔
      FaithfulWhen env tlScopes args o := by
  cases h with
  | invalidOptions hoptions =>
      refine iff_of_true (.of_failed (.options hoptions) (by decide) ?_
        fun _ => rfl) (Or.inl hoptions)
      rintro ⟨up, _, _, _, _, _, hadmitted, -⟩
      exact hoptions hadmitted.options
  | noCurrent hoptions hcurrent =>
      refine iff_of_false not_reportsFaithfully_error ?_
      rintro (hinvalid | ⟨up, hcurrent', -⟩)
      · exact hinvalid hoptions
      · cases hcurrent.symm.trans hcurrent'
  | @policyDenied up hoptions hcurrent hpolicy =>
      refine iff_of_true (.of_failed (.policy hoptions hcurrent hpolicy)
        hpolicy ?_ fun _ => rfl)
        (Or.inr ⟨up, hcurrent, Or.inl hpolicy⟩)
      rintro ⟨up', _, _, _, _, _, hadmitted, -⟩
      obtain rfl := Except.ok.inj (hadmitted.current.symm.trans hcurrent)
      exact hpolicy hadmitted.policy
  | @lookupsFail up hadmitted hlookup =>
      refine iff_of_true (.of_failed (.lookups hadmitted hlookup)
        (not_or.mp hlookup).2 ?_ fun _ => rfl)
        (Or.inr ⟨up, hadmitted.current, Or.inr (Or.inl hlookup)⟩)
      rintro ⟨up', _, _, _, _, _, hadmitted', hlookup', -⟩
      obtain rfl := Except.ok.inj
        (hadmitted'.current.symm.trans hadmitted.current)
      exact hlookup hlookup'
  | noJob hadmitted hlookup hfree =>
      refine iff_of_false not_reportsFaithfully_error fun hwhen => ?_
      exact hfree ((faithfulWhen_iff hadmitted hlookup).mp hwhen).1
  | notReady hadmitted hlookup hjob hstate =>
      refine iff_of_true (.of_failed (.create hadmitted hlookup
        (ProcessDispatcher.create_of_not_ready hjob hstate _ _))
        (by decide) ?_ fun _ => rfl)
        ((faithfulWhen_iff hadmitted hlookup).mpr ⟨hjob, Or.inl hstate⟩)
      rw [allStepsSucceed_iff hadmitted hlookup]
      exact fun hall => hstate hall.2.1
  | noProcessHandle hadmitted hlookup hjob hstate hhandle =>
      -- The process handle is missing, and the result is OK all the same.
      refine iff_of_false (fun hfaithful => hhandle ?_) fun hwhen => ?_
      · exact ((allStepsSucceed_iff hadmitted hlookup).mp
          (hfaithful.ok_iff.mp rfl)).2.2.1
      · obtain ⟨-, hcase⟩ := (faithfulWhen_iff hadmitted hlookup).mp hwhen
        exact hhandle (hcase.resolve_left fun hne => hne hstate).1
  | handles hadmitted hlookup hjob hstate hhandle =>
      by_cases hvmar : vmarHandleStatus env args o = .ok
      · have hall : AllStepsSucceed env tlScopes args o :=
          (allStepsSucceed_iff hadmitted hlookup).mpr
            ⟨hjob, hstate, hhandle, hvmar⟩
        rw [hvmar]
        exact iff_of_true ⟨iff_of_true rfl hall, fun hnot => absurd hall hnot⟩
          ((faithfulWhen_iff hadmitted hlookup).mpr
            ⟨hjob, Or.inr ⟨hhandle, hvmar⟩⟩)
      · -- The process stays registered without its second handle.
        refine iff_of_false (fun hfaithful => ?_) fun hwhen => ?_
        · obtain ⟨-, -, -, hprocs⟩ := hfaithful.otherwise fun hall =>
            hvmar ((allStepsSucceed_iff hadmitted hlookup).mp hall).2.2.2
          exact (addProcess_registered o _ _).procs_ne (hprocs _)
        · obtain ⟨-, hcase⟩ := (faithfulWhen_iff hadmitted hlookup).mp hwhen
          exact hvmar (hcase.resolve_left fun hne => hne hstate).2

/-- For every environment, all arguments and all states of the jobs, the
syscall reports faithfully exactly under the condition. -/
theorem reports_faithfully_iff (env : Environment)
    (tlScopes : List ProcessContext) (args : ProcessCreateArgs)
    (o : Objects) :
    ReportsFaithfully env tlScopes args o
        (perform (sysProcessCreate env tlScopes args) o).1
        (perform (sysProcessCreate env tlScopes args) o).2 ↔
      FaithfulWhen env tlScopes args o :=
  (sysProcessCreate_ending env tlScopes args o).reportsFaithfully_iff

/-- The handle of the process cannot be made: the result is OK, and the process
stays in the list of its job. -/
theorem not_reports_faithfully :
    let env : Environment :=
      { enforceBasicPolicy := fun _ _ => .ok
        getDispatcherWithRights := fun _ _ _ => (.ok, 0)
        makeUserspaceHandle := fun _ _ _ => .errUnsupported
        decode := fun _ => "" }
    let args : ProcessCreateArgs := ⟨5, ⟨[], 0, 0⟩, 0, 0, 0, 1⟩
    let o := machine.exec Objects.init [.createRoot]
    let done := perform (sysProcessCreate env
      [⟨⟨0, "userboot"⟩⟩, ⟨⟨1, "test0"⟩⟩] args) o
    done.2 = .ok .ok ∧
      (done.1.jobs.get 0).procs = [⟨0, "TODO sp here"⟩] ∧
      ¬ ReportsFaithfully env [⟨⟨0, "userboot"⟩⟩, ⟨⟨1, "test0"⟩⟩] args o
        done.1 done.2 := by
  intro env args o done
  refine ⟨rfl, rfl, fun hfaithful => ?_⟩
  obtain ⟨_, _, _, _, _, _, -, -, -, hprocess, -⟩ := hfaithful.ok_iff.mp rfl
  cases hprocess

end Fiber.Kernel
