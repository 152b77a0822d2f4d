import Fiber.Kernel.Job.Dispatcher
import Fiber.Support.Machine

/-!
# Creating jobs and processes

Any sequence of `createRoot`, `create` and `ProcessDispatcher.create`, as a
machine over the kernel's objects.  `Transition` lists what one call does to
them.
-/

namespace Fiber.Kernel.Job

open Fiber.Support

inductive Op
  | createRoot
  | create (parent flags : ℕ)
  | createProcess (job : ℕ) (name : String) (flags : ℕ)
  deriving DecidableEq

/-- What a call returned, or the exception it threw. -/
inductive Reply
  | root (result : Except JsError ℕ)
  | job (result : Except JsError (Status × Option ℕ × FxRights))
  | process (result : Except JsError
      (Result (ProcessDispatcher × FxRights × ℕ × FxRights) Status))

/-- Run code of the kernel to its end. -/
def perform {α : Type} (code : KernelCode α) (o : Objects) :
    Objects × Except JsError α :=
  match code.run o with
  | .ok a o' => (o', .ok a)
  | .error e o' => (o', .error e)

def step (o : Objects) : Op → Objects × Reply
  | .createRoot =>
      let done := perform JobDispatcher.createRoot o
      (done.1, .root done.2)
  | .create parent flags =>
      let done := perform (JobDispatcher.create parent flags) o
      (done.1, .job done.2)
  | .createProcess job name flags =>
      let done := perform (ProcessDispatcher.create job name flags) o
      (done.1, .process done.2)

/-- All jobs of the kernel, as a machine over creations. -/
def machine : Machine Objects Op Reply where
  step := step

/-! ## Everything one creation can do -/

/-- `Transition o op o' reply`: the call `op` takes the objects from `o` to
`o'` and is answered by `reply`. -/
inductive Transition (o : Objects) : Op → Objects → Reply → Prop
  | createdRoot :
      Transition o .createRoot o.addRoot (.root (.ok o.jobs.next))
  | noParent {parent flags : ℕ} (hfree : ¬ o.jobs.Allocated parent) :
      Transition o (.create parent flags) o (.job (.error .typeError))
  | full {parent flags : ℕ} (hparent : o.jobs.Allocated parent)
      (hheight : (o.jobs.get parent).maxHeight = 0) :
      Transition o (.create parent flags) o
        (.job (.ok (.errOutOfRange, none, 0)))
  | refused {parent flags : ℕ} (hparent : o.jobs.Allocated parent)
      (hheight : (o.jobs.get parent).maxHeight ≠ 0)
      (hstate : (o.jobs.get parent).state ≠ .ready) :
      Transition o (.create parent flags) (o.constructChild parent)
        (.job (.ok (.errOutOfRange, none, 0)))
  | created {parent flags : ℕ} (hparent : o.jobs.Allocated parent)
      (hheight : (o.jobs.get parent).maxHeight ≠ 0)
      (hstate : (o.jobs.get parent).state = .ready) :
      Transition o (.create parent flags) (o.addChild parent)
        (.job (.ok (.ok, some o.jobs.next, fxRightNone)))
  | noJob {job flags : ℕ} {name : String} (hfree : ¬ o.jobs.Allocated job) :
      Transition o (.createProcess job name flags) o.constructProcess
        (.process (.error .typeError))
  | refusedProcess {job flags : ℕ} {name : String}
      (hjob : o.jobs.Allocated job)
      (hstate : (o.jobs.get job).state ≠ .ready) :
      Transition o (.createProcess job name flags) o.constructProcess
        (.process (.ok (Result.Err .errBadState)))
  | createdProcess {job flags : ℕ} {name : String}
      (hjob : o.jobs.Allocated job)
      (hstate : (o.jobs.get job).state = .ready) :
      Transition o (.createProcess job name flags) (o.addProcess job name)
        (.process (.ok (Result.Ok
          (o.processNamed name, fxRightNone, o.vmars, 0))))

theorem step_transition (o : Objects) (op : Op) :
    Transition o op (step o op).1 (step o op).2 := by
  cases op with
  | createRoot => exact .createdRoot
  | create parent flags =>
      simp only [step, perform]
      by_cases hparent : o.jobs.Allocated parent
      · by_cases hheight : (o.jobs.get parent).maxHeight = 0
        · rw [JobDispatcher.create_of_maxHeight_eq_zero hparent hheight]
          exact .full hparent hheight
        · by_cases hstate : (o.jobs.get parent).state = .ready
          · rw [JobDispatcher.create_of_ready hparent hheight hstate]
            exact .created hparent hheight hstate
          · rw [JobDispatcher.create_of_not_ready hparent hheight hstate]
            exact .refused hparent hheight hstate
      · rw [JobDispatcher.create_of_not_allocated hparent]
        exact .noParent hparent
  | createProcess job name flags =>
      simp only [step, perform]
      by_cases hjob : o.jobs.Allocated job
      · by_cases hstate : (o.jobs.get job).state = .ready
        · rw [ProcessDispatcher.create_of_ready hjob hstate]
          exact .createdProcess hjob hstate
        · rw [ProcessDispatcher.create_of_not_ready hjob hstate]
          exact .refusedProcess hjob hstate
      · rw [ProcessDispatcher.create_of_not_allocated hjob]
        exact .noJob hjob

/-! ## The jobs after a creation -/

/-- `jobs'` has one more job, `x`, at the next reference, and the parent of `x`
lists it.  Nothing else changes. -/
structure Extends (jobs jobs' : Store JobDispatcher) (x : JobDispatcher) :
    Prop where
  allocated : ∀ j, jobs'.Allocated j ↔ jobs.Allocated j ∨ j = jobs.next
  old : ∀ j, jobs.Allocated j → jobs'.get j =
    { jobs.get j with
      jobs := (jobs.get j).jobs ++
        if x.parent = some j then [jobs.next] else [] }
  new : jobs'.get jobs.next = x

variable {o : Objects} {job parent : ℕ}

theorem addRoot_extends (o : Objects) :
    Extends o.jobs o.addRoot.jobs
      { maxHeight := rootJobMaxHeight, policy := o.policies,
        parentJob := none } where
  allocated := o.jobs.allocated_alloc _
  old := by
    intro j hj
    simp [Objects.addRoot, o.jobs.get_alloc_of_allocated hj,
      JobDispatcher.parent]
  new := o.jobs.get_alloc_self _

theorem addChild_extends (hparent : o.jobs.Allocated parent) :
    Extends o.jobs (o.addChild parent).jobs (o.childOf parent) where
  allocated := o.jobs.allocated_alloc (o.childOf parent)
  old := by
    intro j hj
    simp only [Objects.addChild, Objects.listJob, Objects.constructChild,
      Objects.childOf, JobDispatcher.parent, Option.some.injEq]
    by_cases heq : j = parent
    · subst heq
      rw [Store.get_set_self, o.jobs.get_alloc_of_allocated hj, if_pos rfl]
    · rw [Store.get_set_of_ne _ heq, o.jobs.get_alloc_of_allocated hj,
        if_neg (Ne.symm heq), List.append_nil]
  new := by
    simp only [Objects.addChild, Objects.listJob, Objects.constructChild]
    rw [Store.get_set_of_ne _ (Nat.ne_of_gt hparent), Store.get_alloc_self]

/-- A new process changes nothing but the list of processes of its job. -/
theorem addProcess_get (o : Objects) (job q : ℕ) (name : String) :
    (o.addProcess job name).jobs.get q =
      { o.jobs.get q with
        procs := (o.jobs.get q).procs ++
          if q = job then [o.processNamed name] else [] } := by
  simp only [Objects.addProcess, Objects.listProcess,
    Objects.constructProcess]
  by_cases heq : q = job
  · subst heq
    rw [Store.get_set_self, if_pos rfl]
  · rw [Store.get_set_of_ne _ heq, if_neg heq, List.append_nil]

end Fiber.Kernel.Job
