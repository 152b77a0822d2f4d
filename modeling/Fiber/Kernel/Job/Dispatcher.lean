import Fiber.Kernel.Process.Scope
import Fiber.Kernel.Result
import Fiber.Support.Store

/-!
# Jobs and the processes in them

Jobs are objects in a store.  A job keeps its parent and its policy from its
construction, and lists the jobs and the processes that were added to it.
Methods are code that may throw: calling one on something that is no job is a
`TypeError`.

A child is constructed before its parent is asked to add it, and `create`
reports what the parent answered.
-/

namespace Fiber.Kernel

open Fiber.Support

def rootJobMaxHeight : ℤ := 32

inductive State
  | ready
  | killing
  | dead
  deriving DecidableEq, Repr

/-- A job.  Policies, like other objects without state, are numbers. -/
structure JobDispatcher where
  jobs : List ℕ := []
  procs : List ProcessDispatcher := []
  maxHeight : ℤ
  policy : ℕ
  parentJob : Option ℕ
  state : State := .ready
  deriving DecidableEq

/-- The objects of the kernel; of policies, processes and address regions only
the number made so far matters. -/
structure Objects where
  jobs : Store JobDispatcher
  policies : ℕ
  processes : ℕ
  vmars : ℕ

def Objects.init : Objects where
  jobs := Store.empty
    { maxHeight := rootJobMaxHeight, policy := 0, parentJob := none }
  policies := 0
  processes := 0
  vmars := 0

/-- Code of the kernel. -/
abbrev KernelCode := EStateM JsError Objects

namespace JobDispatcher

def getPolicy (self : JobDispatcher) : ℕ := self.policy

def parent (self : JobDispatcher) : Option ℕ := self.parentJob

/-- The job at a reference, to call a method on. -/
def this (job : ℕ) : KernelCode JobDispatcher := fun o =>
  if o.jobs.Allocated job then .ok (o.jobs.get job) o
  else .error .typeError o

/-- Write back the fields of a job. -/
def update (job : ℕ) (self : JobDispatcher) : KernelCode Unit :=
  modify fun o => { o with jobs := o.jobs.set job self }

/-- The constructor. -/
def new (_flags : ℕ) (parent : Option ℕ) (policy : ℕ) : KernelCode ℕ := do
  let maxHeight ← match parent with
    | some parent => do pure ((← this parent).maxHeight - 1)
    | none => pure rootJobMaxHeight
  let self : JobDispatcher :=
    { maxHeight := maxHeight, policy := policy, parentJob := parent }
  modifyGet fun o => (o.jobs.next, { o with jobs := o.jobs.alloc self })

/-- `new JobPolicy()`. -/
def newPolicy : KernelCode ℕ :=
  modifyGet fun o => (o.policies, { o with policies := o.policies + 1 })

def createRoot : KernelCode ℕ := do
  new 0 none (← newPolicy)

def addChildProcess (job : ℕ) (process : ProcessDispatcher) :
    KernelCode Bool := do
  let self ← this job
  if self.state ≠ .ready then pure false
  else do
    update job { self with procs := self.procs ++ [process] }
    pure true

def addChildJob (job child : ℕ) : KernelCode Bool := do
  let self ← this job
  if self.state ≠ .ready then pure false
  else do
    update job { self with jobs := self.jobs ++ [child] }
    pure true

def create (parent : ℕ) (flags : ℕ) :
    KernelCode (Status × Option ℕ × FxRights) := do
  if (← this parent).maxHeight = 0 then pure (.errOutOfRange, none, 0)
  else do
    let handle ← new flags (some parent) (← this parent).getPolicy
    if !(← addChildJob parent handle) then pure (.errOutOfRange, none, 0)
    else pure (.ok, some handle, fxRightNone)

end JobDispatcher

/-- `VmarDispatcher.create`. -/
def VmarDispatcher.create (_flags : ℕ) : KernelCode (ℕ × FxRights) :=
  modifyGet fun o => ((o.vmars, 0), { o with vmars := o.vmars + 1 })

namespace ProcessDispatcher

/-- The constructor. -/
def new (_parentJob : ℕ) (name : String) (_flags : ℕ) :
    KernelCode ProcessDispatcher :=
  modifyGet fun o =>
    (⟨o.processes, name⟩, { o with processes := o.processes + 1 })

def init (_self : ProcessDispatcher) : Status := .ok

def create (parentJob : ℕ) (name : String) (flags : ℕ) :
    KernelCode
      (Result (ProcessDispatcher × FxRights × ℕ × FxRights) Status) := do
  let handle ← new parentJob name flags
  let status := handle.init
  if status ≠ .ok then pure (Result.Err status)
  else do
    let (vmarHandle, vmarRights) ← VmarDispatcher.create 0
    if !(← JobDispatcher.addChildProcess parentJob handle) then
      pure (Result.Err .errBadState)
    else pure (Result.Ok (handle, fxRightNone, vmarHandle, vmarRights))

end ProcessDispatcher

/-! ## What the methods do -/

namespace Objects

/-- The child that `JobDispatcher.create` constructs. -/
def childOf (o : Objects) (parent : ℕ) : JobDispatcher where
  maxHeight := (o.jobs.get parent).maxHeight - 1
  policy := (o.jobs.get parent).getPolicy
  parentJob := some parent

/-- A new root job, with a policy of its own. -/
def addRoot (o : Objects) : Objects where
  jobs := o.jobs.alloc
    { maxHeight := rootJobMaxHeight, policy := o.policies, parentJob := none }
  policies := o.policies + 1
  processes := o.processes
  vmars := o.vmars

/-- A new job that no other one lists. -/
def constructChild (o : Objects) (parent : ℕ) : Objects :=
  { o with jobs := o.jobs.alloc (o.childOf parent) }

/-- The job lists one more job. -/
def listJob (o : Objects) (job child : ℕ) : Objects :=
  let self := o.jobs.get job
  { o with jobs := o.jobs.set job { self with jobs := self.jobs ++ [child] } }

/-- A new job, listed by its parent. -/
def addChild (o : Objects) (parent : ℕ) : Objects :=
  (o.constructChild parent).listJob parent o.jobs.next

/-- The process that `ProcessDispatcher.create` constructs. -/
def processNamed (o : Objects) (name : String) : ProcessDispatcher :=
  ⟨o.processes, name⟩

/-- A new process with its address region, in no job. -/
def constructProcess (o : Objects) : Objects :=
  { o with processes := o.processes + 1, vmars := o.vmars + 1 }

/-- The job lists one more process. -/
def listProcess (o : Objects) (job : ℕ) (process : ProcessDispatcher) :
    Objects :=
  let self := o.jobs.get job
  { o with
    jobs := o.jobs.set job { self with procs := self.procs ++ [process] } }

/-- A new process, listed by its job. -/
def addProcess (o : Objects) (job : ℕ) (name : String) : Objects :=
  o.constructProcess.listProcess job (o.processNamed name)

end Objects

variable {o : Objects} {job parent : ℕ}

namespace JobDispatcher

theorem this_run (h : o.jobs.Allocated job) :
    (this job).run o = .ok (o.jobs.get job) o :=
  if_pos h

theorem this_run_error (h : ¬ o.jobs.Allocated job) :
    (this job).run o = .error .typeError o :=
  if_neg h

theorem new_run (h : o.jobs.Allocated parent) (flags : ℕ) :
    (new flags (some parent) (o.jobs.get parent).getPolicy).run o =
      .ok o.jobs.next (o.constructChild parent) := by
  simp [new, this_run h, Objects.constructChild, Objects.childOf]

theorem addChildJob_of_ready (h : o.jobs.Allocated job)
    (hstate : (o.jobs.get job).state = .ready) (child : ℕ) :
    (addChildJob job child).run o = .ok true (o.listJob job child) := by
  rw [addChildJob, EStateM.run_bind, this_run h]
  simp only [if_neg (not_not_intro hstate)]
  rfl

theorem addChildJob_of_not_ready (h : o.jobs.Allocated job)
    (hstate : (o.jobs.get job).state ≠ .ready) (child : ℕ) :
    (addChildJob job child).run o = .ok false o := by
  simp [addChildJob, this_run h, hstate]

theorem addChildProcess_of_ready (h : o.jobs.Allocated job)
    (hstate : (o.jobs.get job).state = .ready)
    (process : ProcessDispatcher) :
    (addChildProcess job process).run o =
      .ok true (o.listProcess job process) := by
  rw [addChildProcess, EStateM.run_bind, this_run h]
  simp only [if_neg (not_not_intro hstate)]
  rfl

theorem addChildProcess_of_not_ready (h : o.jobs.Allocated job)
    (hstate : (o.jobs.get job).state ≠ .ready)
    (process : ProcessDispatcher) :
    (addChildProcess job process).run o = .ok false o := by
  simp [addChildProcess, this_run h, hstate]

theorem addChildProcess_of_not_allocated (h : ¬ o.jobs.Allocated job)
    (process : ProcessDispatcher) :
    (addChildProcess job process).run o = .error .typeError o := by
  simp [addChildProcess, this_run_error h]

theorem create_of_not_allocated (h : ¬ o.jobs.Allocated parent)
    (flags : ℕ) :
    (create parent flags).run o = .error .typeError o := by
  simp [create, this_run_error h]

theorem create_of_maxHeight_eq_zero (h : o.jobs.Allocated parent)
    (hheight : (o.jobs.get parent).maxHeight = 0) (flags : ℕ) :
    (create parent flags).run o = .ok (.errOutOfRange, none, 0) o := by
  simp [create, this_run h, hheight]

theorem create_of_ready (h : o.jobs.Allocated parent)
    (hheight : (o.jobs.get parent).maxHeight ≠ 0)
    (hstate : (o.jobs.get parent).state = .ready) (flags : ℕ) :
    (create parent flags).run o =
      .ok (.ok, some o.jobs.next, fxRightNone) (o.addChild parent) := by
  have hadd := addChildJob_of_ready (o := o.constructChild parent)
    (h.alloc _) (by
      rwa [Objects.constructChild, o.jobs.get_alloc_of_allocated h])
    o.jobs.next
  simp [create, this_run h, hheight, new_run h, hadd, Objects.addChild]

theorem create_of_not_ready (h : o.jobs.Allocated parent)
    (hheight : (o.jobs.get parent).maxHeight ≠ 0)
    (hstate : (o.jobs.get parent).state ≠ .ready) (flags : ℕ) :
    (create parent flags).run o =
      .ok (.errOutOfRange, none, 0) (o.constructChild parent) := by
  have hadd := addChildJob_of_not_ready (o := o.constructChild parent)
    (h.alloc _) (by
      rwa [Objects.constructChild, o.jobs.get_alloc_of_allocated h])
    o.jobs.next
  simp [create, this_run h, hheight, new_run h, hadd]

end JobDispatcher

namespace ProcessDispatcher

/-- The objects made before the job is asked do not depend on it. -/
theorem create_run (job : ℕ) (name : String) (flags : ℕ) (o : Objects) :
    (create job name flags).run o =
      match (JobDispatcher.addChildProcess job (o.processNamed name)).run
          o.constructProcess with
      | .ok true o' =>
          .ok (Result.Ok (o.processNamed name, fxRightNone, o.vmars, 0)) o'
      | .ok false o' => .ok (Result.Err .errBadState) o'
      | .error e o' => .error e o' := by
  have hmade : (new job name flags).run o = .ok (o.processNamed name)
      { o with processes := o.processes + 1 } := rfl
  cases hadd : (JobDispatcher.addChildProcess job (o.processNamed name)).run
      o.constructProcess with
  | ok added o' =>
      rw [Objects.constructProcess] at hadd
      cases added <;> simp [create, hmade, init, VmarDispatcher.create, hadd]
  | error e o' =>
      rw [Objects.constructProcess] at hadd
      simp [create, hmade, init, VmarDispatcher.create, hadd]

theorem create_of_not_allocated (h : ¬ o.jobs.Allocated job)
    (name : String) (flags : ℕ) :
    (create job name flags).run o = .error .typeError o.constructProcess := by
  rw [create_run, JobDispatcher.addChildProcess_of_not_allocated
    (o := o.constructProcess) h]

theorem create_of_not_ready (h : o.jobs.Allocated job)
    (hstate : (o.jobs.get job).state ≠ .ready) (name : String)
    (flags : ℕ) :
    (create job name flags).run o =
      .ok (Result.Err .errBadState) o.constructProcess := by
  rw [create_run, JobDispatcher.addChildProcess_of_not_ready
    (o := o.constructProcess) h hstate]

theorem create_of_ready (h : o.jobs.Allocated job)
    (hstate : (o.jobs.get job).state = .ready) (name : String)
    (flags : ℕ) :
    (create job name flags).run o =
      .ok (Result.Ok (o.processNamed name, fxRightNone, o.vmars, 0))
        (o.addProcess job name) := by
  rw [create_run, JobDispatcher.addChildProcess_of_ready
    (o := o.constructProcess) h hstate]
  rfl

end ProcessDispatcher
end Fiber.Kernel
